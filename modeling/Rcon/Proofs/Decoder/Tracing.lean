import Mathlib.Data.List.Forall2
import Rcon.Proofs.Decoder.Discards
import Rcon.Proofs.Decoder.Listeners

/-!
# What the log of a feed says

A caller who keeps a log with debug output can read off it what the feed did (`Trace`): it starts
with the chunk, then comes one record for each frame, then the reason why the last attempt had to
wait, if there is one to give, and last a warning for each discard.

The records are made at different moments, of a buffer that changes in between. The frame of a
record is already spent when the bytes that remain are counted, and a malformed packet or a stall is
not yet dropped. So the counts are compared with what is known otherwise: the bytes that remain
behind a frame are those that were pending with the chunk **less all frames so far**, and a warning
counts the bytes of its discard.

The order of the notes comes from the run of attempts (`ordered_drain`), which is then read as
records: no other note has the message of a completed frame, and none but those of discards are
warnings.
-/

namespace Rcon

/-! ### Notes in order -/

namespace Note

/-- Does a note tell of a completed frame? -/
def isCompletion : Note → Bool
  | .completed .. => true
  | _ => false

/-- The discard that a note tells of. -/
def discard? : Note → Option Discard
  | .malformed discarded .. => some ⟨.malformedTerminator, discarded⟩
  | .stalled pending _ => some ⟨.stalled, pending⟩
  | _ => none

/-- The notes of frames that are taken off one after the other. -/
def completions (pending : Nat) : List Frame → List Note
  | [] => []
  | frame :: rest =>
    .completed frame (pending - frame.length) :: completions (pending - frame.length) rest

/-- **What remains behind a frame** is what was pending, less it and all before it. -/
theorem getElem?_completions (pending : Nat) (frames : List Frame) (k : Nat) :
    (completions pending frames)[k]? =
      frames[k]?.map fun frame ↦
        .completed frame (pending - ((frames.take (k + 1)).map Frame.length).sum) := by
  induction frames generalizing pending k with
  | nil => rfl
  | cons frame rest ih =>
    cases k with
    | zero => rfl
    | succ k =>
      rw [completions, List.getElem?_cons_succ, ih, List.getElem?_cons_succ, List.take_succ_cons,
        List.map_cons, List.sum_cons, Nat.sub_sub]

theorem exists_of_mem_completions {pending : Nat} {frames : List Frame} {note : Note}
    (h : note ∈ completions pending frames) :
    ∃ frame remaining, note = .completed frame remaining := by
  obtain ⟨k, hk⟩ := List.getElem?_of_mem h
  rw [getElem?_completions, Option.map_eq_some_iff] at hk
  obtain ⟨frame, -, rfl⟩ := hk
  exact ⟨frame, _, rfl⟩

@[simp] theorem length_completions (pending : Nat) (frames : List Frame) :
    (completions pending frames).length = frames.length := by
  induction frames generalizing pending with
  | nil => rfl
  | cons frame rest ih => rw [completions, List.length_cons, List.length_cons, ih]

end Note

/-- Why an attempt had to wait, as a note. -/
def Attempt.reason? (attempt : Attempt) : Option Note :=
  match attempt.head with
  | .waiting why => some (.waiting why)
  | _ => none

/-- Notes that tell of frames, then of why the last attempt had to wait, and then of discards. -/
structure Note.Ordered (pending : Nat) (frames : List Frame) (discards : List Discard)
    (last : Attempt) (notes : List Note) : Prop where
  /-- The notes come in this order. -/
  exists_eq : ∃ dropped, notes = completions pending frames ++ (last.reason?.toList ++ dropped) ∧
    dropped.map discard? = discards.map some
  /-- The last attempt has a reason to give just if there were enough bytes for a frame. -/
  isSome_reason?_iff : last.reason?.isSome = true ↔ 14 ≤ last.pending

/-- **The notes of a run of attempts are in order** if nothing is raised. -/
theorem ordered_drain {handler : DiscardHandler} (hquiet : handler.raised? = none) (bytes : Bytes) :
    ∃ last, (drain handler bytes).attempts.getLast? = some last ∧
      Note.Ordered bytes.length (drain handler bytes).frames (drain handler bytes).discards last
        (drain handler bytes).notes := by
  fun_induction drain handler bytes with
  | case1 bytes frame hread ih =>
    rw [List.length_drop] at ih
    obtain ⟨last, hlast, ⟨dropped, hnotes, hdropped⟩, hreason⟩ := ih
    refine ⟨last, ?_, ⟨dropped, ?_, hdropped⟩, hreason⟩
    · show (_ :: (drain handler (bytes.drop frame.length)).attempts).getLast? = some last
      rw [List.getLast?_cons, hlast]
      rfl
    · show _ :: (drain handler (bytes.drop frame.length)).notes = _
      rw [hnotes]
      rfl
  | case2 bytes first second hread what hraised =>
    rw [hquiet] at hraised
    cases hraised
  | case3 bytes first second hread hraised ih =>
    -- Behind what is dropped there is one more attempt, on nothing.
    rw [drain_nil]
    exact ⟨⟨0, .short⟩, rfl, ⟨[.malformed bytes.length first second], rfl, rfl⟩, by decide⟩
  | case4 bytes why hread =>
    have hle : 14 ≤ bytes.length := by
      refine Nat.le_of_not_lt fun hlt ↦ ?_
      rw [Head.read_eq_short hlt] at hread
      cases hread
    exact ⟨⟨bytes.length, .waiting why⟩, rfl, ⟨[], rfl, rfl⟩, iff_of_true rfl hle⟩
  | case5 bytes hread =>
    have hlt := Nat.not_le.2 (Head.read_eq_short_iff.1 hread)
    exact ⟨⟨bytes.length, .short⟩, rfl, ⟨[], rfl, rfl⟩, iff_of_false Bool.false_ne_true hlt⟩

/-- **The notes of a feed are in order** behind that of the chunk. -/
theorem Decoder.Feeds.ordered {decoder : Decoder} {handler : DiscardHandler} {chunk : Bytes}
    {fed : Feed} (h : Feeds decoder handler chunk fed) (hquiet : handler.raised? = none)
    (hchunk : chunk ≠ []) :
    let pending := (decoder.pending ++ chunk).length
    ∃ last notes, fed.attempts.getLast? = some last ∧
      fed.notes = .received chunk.length pending (0 < decoder.continuations) :: notes ∧
      Note.Ordered pending fed.frames fed.discards last notes := by
  obtain ⟨last, hlast, hordered⟩ := ordered_drain hquiet (decoder.pending ++ chunk)
  cases h with
  | idle hidle => exact absurd hidle hchunk
  | calm _ hcalm => exact ⟨last, _, hlast, rfl, hordered⟩
  | stalling _ hpolicy hover => exact ⟨last, _, hlast, rfl, hordered⟩
  | dropping _ hpolicy hover =>
    obtain ⟨⟨dropped, hnotes, hdropped⟩, hreason⟩ := hordered
    -- A run that overflows dropped nothing, so that of the stall is the only discard.
    have hnone : dropped = [] := by
      rw [show (drain handler (decoder.pending ++ chunk)).discards = [] from hover.discards_eq]
        at hdropped
      exact List.map_eq_nil_iff.1 hdropped
    let stalled : Note :=
      .stalled (decoder.pending ++ chunk).length decoder.config.maxPendingBytes
    refine ⟨last, (drain handler (decoder.pending ++ chunk)).notes ++ [stalled], hlast, rfl,
      ⟨[stalled], ?_, rfl⟩, hreason⟩
    rw [hnotes, hnone, List.append_nil, List.append_assoc]
    rfl

/-! ### Records -/

namespace Log.Record

/-- What a record says under a key. -/
def get (record : Log.Record) (key : String) : Value :=
  record.fields.get (Units.ofString key)

/-- Does a record tell of a completed frame? -/
def isCompletion (record : Log.Record) : Bool :=
  record.message = "Frame complete"

/-- Is a record a warning? -/
def isWarning (record : Log.Record) : Bool :=
  record.level = .warn

/-- The record of a chunk of this many bytes, with which so many are pending. -/
def arrival (received pending : Nat) (continuing : Bool) : Log.Record :=
  ⟨.debug, "Decoding incoming data",
    [(Units.ofString "received", .ofNat received), (Units.ofString "pending", .ofNat pending),
      (Units.ofString "continuation", .bool continuing)]⟩

/-- A record that tells of the frame of a response, behind which so many bytes remain. -/
structure Tells (record : Log.Record) (response : Response) (bodyLength remaining : Nat) :
    Prop where
  /-- The record is debug output. -/
  level : record.level = .debug
  /-- The size is that of the response. -/
  size : record.get "size" = .ofInt response.size
  /-- The request id is that of the response. -/
  id : record.get "id" = .ofInt response.id
  /-- The type is that of the response. -/
  type : record.get "type" = .ofInt response.code
  /-- The body has this length. -/
  bodyLength : record.get "bodyLength" = .ofNat bodyLength
  /-- This many bytes remain. -/
  remaining : record.get "remaining" = .ofNat remaining

/-- The key under which a warning counts the bytes of a discard. -/
def countKey : DiscardReason → String
  | .malformedTerminator => "discarded"
  | .stalled => "pending"

/-- A warning that tells of a discard. -/
def Warns (record : Log.Record) (discard : Discard) : Prop :=
  record.level = .warn ∧ record.get (countKey discard.reason) = .ofNat discard.bytes

end Log.Record

namespace Note

variable (limit : Nat)

/-- Only the note of a completed frame has its message. -/
theorem isCompletion_record (note : Note) :
    (note.record limit).isCompletion = note.isCompletion := by
  cases note with
  | received bytes pending continuing => rfl
  | completed frame remaining => rfl
  | waiting why => cases why <;> rfl
  | malformed discarded first second => rfl
  | stalled pending bound => rfl

/-- Only the notes of discards are warnings. -/
theorem isWarning_record (note : Note) :
    (note.record limit).isWarning = note.discard?.isSome := by
  cases note <;> rfl

theorem tells_record_completed (frame : Frame) (remaining : Nat) :
    ((completed frame remaining).record limit).Tells frame.response frame.body.length
      remaining := by
  constructor <;> rfl

theorem warns_record {note : Note} {discard : Discard} (h : note.discard? = some discard) :
    (note.record limit).Warns discard := by
  cases note with
  | malformed discarded first second =>
    obtain rfl := Option.some.inj h
    exact ⟨rfl, show ((malformed discarded first second).record limit).get "discarded" = _ by rfl⟩
  | stalled pending bound =>
    obtain rfl := Option.some.inj h
    exact ⟨rfl, show ((stalled pending bound).record limit).get "pending" = _ by rfl⟩
  | _ => cases h

end Note

/-! ### What the notes are made into -/

namespace Note

theorem exists_of_mem_reason? {attempt : Attempt} {note : Note} (h : note ∈ attempt.reason?) :
    ∃ why, attempt.head = .waiting why ∧ note = .waiting why := by
  rw [Option.mem_def, Attempt.reason?] at h
  split at h
  · next why hhead => exact ⟨why, hhead, (Option.some.inj h).symm⟩
  · cases h

section Parts

variable {pending : Nat} {frames : List Frame} {discards : List Discard} {last : Attempt}
  {dropped : List Note} {arrived : Note}

/-- What the notes of chunks and of reasons to wait never are, notes in order are only among those
of frames and of discards. -/
theorem filter_ordered {p : Note → Bool} (harrived : p arrived = false)
    (hwaiting : ∀ why, p (.waiting why) = false) :
    (arrived :: (completions pending frames ++ (last.reason?.toList ++ dropped))).filter p =
      (completions pending frames).filter p ++ dropped.filter p := by
  have hreason : last.reason?.toList.filter p = [] := by
    rw [List.filter_eq_nil_iff]
    intro note hnote
    obtain ⟨why, -, rfl⟩ := exists_of_mem_reason? (Option.mem_toList.1 hnote)
    rw [hwaiting why]
    exact Bool.false_ne_true
  rw [List.filter_cons_of_neg (harrived ▸ Bool.false_ne_true), List.filter_append,
    List.filter_append, hreason, List.nil_append]

theorem exists_of_mem_dropped (hdropped : dropped.map discard? = discards.map some) {note : Note}
    (h : note ∈ dropped) : ∃ discard, note.discard? = some discard := by
  have hmem : note.discard? ∈ discards.map some := hdropped ▸ List.mem_map_of_mem h
  obtain ⟨discard, -, hdiscard⟩ := List.mem_map.1 hmem
  exact ⟨discard, hdiscard.symm⟩

/-- Of notes in order, those of frames are the ones that tell of a completed frame. -/
theorem filter_isCompletion (harrived : arrived.isCompletion = false)
    (hdropped : dropped.map discard? = discards.map some) :
    (arrived :: (completions pending frames ++ (last.reason?.toList ++ dropped))).filter
        isCompletion = completions pending frames := by
  have hframes : (completions pending frames).filter isCompletion = completions pending frames := by
    rw [List.filter_eq_self]
    intro note hnote
    obtain ⟨frame, remaining, rfl⟩ := exists_of_mem_completions hnote
    rfl
  have hnone : dropped.filter isCompletion = [] := by
    rw [List.filter_eq_nil_iff]
    intro note hnote
    obtain ⟨discard, hdiscard⟩ := exists_of_mem_dropped hdropped hnote
    cases note with
    | completed frame remaining => cases hdiscard
    | _ => exact Bool.false_ne_true
  rw [filter_ordered harrived fun _ ↦ rfl, hframes, hnone, List.append_nil]

/-- Of notes in order, those of discards are the ones that tell of a discard. -/
theorem filter_isSome_discard? (harrived : arrived.discard? = none)
    (hdropped : dropped.map discard? = discards.map some) :
    (arrived :: (completions pending frames ++ (last.reason?.toList ++ dropped))).filter
        (fun note ↦ note.discard?.isSome) = dropped := by
  have hframes : (completions pending frames).filter (fun note ↦ note.discard?.isSome) = [] := by
    rw [List.filter_eq_nil_iff]
    intro note hnote
    obtain ⟨frame, remaining, rfl⟩ := exists_of_mem_completions hnote
    exact Bool.false_ne_true
  have hall : dropped.filter (fun note ↦ note.discard?.isSome) = dropped := by
    rw [List.filter_eq_self]
    intro note hnote
    obtain ⟨discard, hdiscard⟩ := exists_of_mem_dropped hdropped hnote
    rw [hdiscard]
    rfl
  rw [filter_ordered (by rw [harrived]; rfl) fun _ ↦ rfl, hframes, hall, List.nil_append]

/-- Records of notes of discards warn of them, one by one. -/
theorem forall₂_warns (limit : Nat) (hdropped : dropped.map discard? = discards.map some) :
    List.Forall₂ Log.Record.Warns (dropped.map (record limit)) discards := by
  induction dropped generalizing discards with
  | nil =>
    rw [List.map_eq_nil_iff.1 hdropped.symm]
    exact .nil
  | cons note rest ih =>
    cases discards with
    | nil => cases hdropped
    | cons discard others =>
      rw [List.map_cons, List.map_cons, List.cons_eq_cons] at hdropped
      exact .cons (warns_record limit hdropped.1) (ih hdropped.2)

end Parts

end Note

/-! ### The trace -/

open Log.Record (isCompletion isWarning) in
/-- What the log of a feed says. -/
structure Trace (before : Decoder) (chunk : Bytes) (fed : Feed) (records : List Log.Record) :
    Prop where
  /-- The log starts with the chunk and with what is pending with it. Then come the frames, then at
  most one reason, and then the warnings. **There is a reason just if the last attempt had as many
  bytes as a frame has**, and it is the one for which that attempt had to wait. -/
  order : ∃ (reason : Option Log.Record) (last : Attempt),
    records =
        .arrival chunk.length (before.pending.length + chunk.length) (1 ≤ before.continuations) ::
          (records.filter isCompletion ++ (reason.toList ++ records.filter isWarning)) ∧
      fed.attempts.getLast? = some last ∧ (reason.isSome = true ↔ 14 ≤ last.pending) ∧
      ∀ record ∈ reason, record.level = .debug ∧
        ∃ why, last.head = .waiting why ∧ record.message = (Note.waiting why).message
  /-- A feed that returns completes as many frames as it has responses, and each is told with what
  remains behind it and all before it. -/
  completions : ∀ responses, fed.outcome = .ok responses →
    (records.filter isCompletion).length = responses.length ∧
      ∀ k response, responses[k]? = some response → ∃ record frame,
        let taken := ((fed.frames.take (k + 1)).map fun frame ↦ 14 + frame.body.length).sum
        let pending := before.pending.length + chunk.length
        (records.filter isCompletion)[k]? = some record ∧ fed.frames[k]? = some frame ∧
          taken ≤ pending ∧ record.Tells response frame.body.length (pending - taken)
  /-- The warnings tell of the discards, one by one. -/
  warnings : List.Forall₂ Log.Record.Warns (records.filter isWarning) fed.discards
  /-- Of a stall that is an error nothing is said. -/
  stall : ∀ stall, fed.outcome = .error (.stall stall) → records.filter isWarning = []

namespace Decoder

variable {decoder : Decoder} {handler : DiscardHandler} {chunk : Bytes} {fed : Feed}

/-- The first frames of a feed take no more bytes than there were. -/
theorem sum_length_take_le (decoder : Decoder) (handler : DiscardHandler) (chunk : Bytes)
    (k : Nat) :
    (((decoder.feed handler chunk).frames.take k).map Frame.length).sum ≤
      decoder.pending.length + chunk.length := by
  have hcuts := (decoder.cuts_feed handler chunk).length_eq
  rw [Segment.total_ofTaken, List.length_append] at hcuts
  have hsplit := congrArg (fun frames ↦ (frames.map Frame.length).sum)
    (List.take_append_drop k (decoder.feed handler chunk).frames)
  simp only [List.map_append, List.sum_append] at hsplit
  omega

/-- **The log of a feed is its trace**, if the caller raises nothing. -/
theorem trace_feed (decoder : Decoder) (hquiet : handler.raised? = none) (hchunk : chunk ≠ [])
    (limit : Nat) :
    Trace decoder chunk (decoder.feed handler chunk)
      ((decoder.feed handler chunk).notes.map (Note.record limit)) := by
  have hfeeds := decoder.feeds handler chunk
  obtain ⟨last, notes, hlast, hnotes, ⟨dropped, hordered, hdropped⟩, hreason⟩ :=
    hfeeds.ordered hquiet hchunk
  rw [hordered] at hnotes
  -- What is asked of records comes down to what is asked of notes.
  have hcompletions :
      ((decoder.feed handler chunk).notes.map (Note.record limit)).filter Log.Record.isCompletion =
        (Note.completions (decoder.pending ++ chunk).length
          (decoder.feed handler chunk).frames).map (Note.record limit) := by
    rw [List.filter_map, show Log.Record.isCompletion ∘ Note.record limit = Note.isCompletion from
      funext (Note.isCompletion_record limit), hnotes, Note.filter_isCompletion rfl hdropped]
  have hwarnings :
      ((decoder.feed handler chunk).notes.map (Note.record limit)).filter Log.Record.isWarning =
        dropped.map (Note.record limit) := by
    rw [List.filter_map, show Log.Record.isWarning ∘ Note.record limit =
      fun note ↦ note.discard?.isSome from funext (Note.isWarning_record limit), hnotes,
      Note.filter_isSome_discard? rfl hdropped]
  refine ⟨⟨last.reason?.map (Note.record limit), last, ?_, hlast, ?_, ?_⟩, ?_, ?_, ?_⟩
  · rw [hcompletions, hwarnings, hnotes, List.length_append]
    simp only [List.map_cons, List.map_append, Option.toList_map]
    rfl
  · rw [Option.isSome_map, hreason]
  · intro record hrecord
    obtain ⟨note, hnote, rfl⟩ := Option.map_eq_some_iff.1 hrecord
    obtain ⟨why, hhead, rfl⟩ := Note.exists_of_mem_reason? hnote
    exact ⟨rfl, why, hhead, rfl⟩
  · intro responses hreturned
    have hresponses : responses = (decoder.feed handler chunk).frames.map Frame.response := by
      rcases hfeeds.outcome_cases with hok | ⟨failure, herror⟩
      · exact Except.ok.inj (hreturned.symm.trans hok)
      · exact nomatch hreturned.symm.trans herror
    rw [hcompletions, hresponses]
    refine ⟨by simp, fun k response hresponse ↦ ?_⟩
    rw [List.getElem?_map, Option.map_eq_some_iff] at hresponse
    obtain ⟨frame, hframe, rfl⟩ := hresponse
    refine ⟨_, frame, ?_, hframe, decoder.sum_length_take_le handler chunk (k + 1),
      Note.tells_record_completed limit frame _⟩
    rw [List.getElem?_map, Note.getElem?_completions, hframe, List.length_append]
    rfl
  · rw [hwarnings]
    exact Note.forall₂_warns limit hdropped
  · intro stall hstall
    -- A feed that drops something returns, since the caller raises nothing.
    have hnone : (decoder.feed handler chunk).discards = [] := by
      by_contra hdrop
      have hends := (hfeeds.eq_of_discards_ne_nil hdrop).2
      rw [hquiet, hstall] at hends
      cases hends
    rw [hnone] at hdropped
    rw [hwarnings, List.map_eq_nil_iff.1 hdropped]
    rfl

end Decoder

namespace Session

/-- The session as it is behind moments. -/
def after (session : Session) : List Moment → Session
  | [] => session
  | moment :: rest => (session.perform moment).1.after rest

theorem listener_after (session : Session) (moments : List Moment) :
    (session.after moments).listener = session.listener := by
  have hlog (session : Session) (records : List Log.Record) :
      (session.log records).1.listener = session.listener := by
    unfold log
    split <;> rfl
  induction moments generalizing session with
  | nil => rfl
  | cons moment rest ih =>
    rw [after, ih]
    obtain ⟨⟨operation, handler⟩, environment⟩ := moment
    cases operation with
    | feed chunk => exact hlog _ _
    | reset => rfl

/-- A caller with debug output is handed the records of all notes. -/
theorem records_perform {session : Session} (hlistener : session.listener = .caller true)
    (chunk : Bytes) (handler : DiscardHandler) (environment : Environment) :
    (session.perform ⟨⟨.feed chunk, handler⟩, environment⟩).2.records =
      (session.decoder.feed handler chunk).notes.map
        (Note.record session.decoder.config.bodyPreviewChars) := by
  have hmade (notes : List Note) : notes.filter (Note.isMade true) = notes := by
    rw [List.filter_eq_self]
    intro note _
    cases note <;> rfl
  simp only [perform, facing, step, log, recordsOf, debugEnabled, hlistener, hmade]

/-- **The diagnostic trace is faithful.** Whatever was done to a session before, what a caller who
keeps a log with debug output is handed in a feed is the trace of that feed, if the discards raise
nothing: it goes with how the feed ends and with the discards that are told. It is also what the log
of a reader has heard that tells each thing at its moment. -/
theorem trace_perform {session : Session} (hlistener : session.listener = .caller true)
    (done : List Moment) {handler : DiscardHandler} (hquiet : handler.raised? = none)
    {chunk : Bytes} (hchunk : chunk ≠ []) (environment : Environment) :
    let before := session.after done
    let fed := before.decoder.feed handler chunk
    let shown := (before.perform ⟨⟨.feed chunk, handler⟩, environment⟩).2
    let recorder := (Listener.caller true).recorder (Log.Settings.ofEnvironment environment)
    shown.outcome = some fed.outcome ∧ shown.discards = handler.told fed.discards ∧
      Trace before.decoder chunk fed shown.records ∧
      (((Reader.ofDecoder before.decoder).feedTelling recorder handler chunk).run
        ⟨before.journal, [], []⟩).2.records = shown.records := by
  intro before fed shown recorder
  have hbefore : before.listener = .caller true := (session.listener_after done).trans hlistener
  refine ⟨rfl, rfl, ?_, ?_⟩
  · rw [show shown.records = _ from records_perform hbefore chunk handler environment]
    exact before.decoder.trace_feed hquiet hchunk _
  · obtain ⟨-, -, -, hheard⟩ := before.performTelling_eq ⟨⟨.feed chunk, handler⟩, environment⟩
    rw [hbefore] at hheard
    exact congrArg Heard.records hheard

/-- The rest of a frame, another one, and a third that is not all there. -/
theorem trace_perform_two_frames :
    let packet := Packet.bytes ⟨11, 123456789, 0, [65], 0, 0⟩
    let session : Session :=
      ⟨Decoder.fresh .default, .absent, .caller true, {},
        ⟨⟨"1970-01-01T00:00:00.000Z", by decide⟩, []⟩⟩
    let done : List Session.Moment := [⟨⟨.feed (packet.take 5), .raises (.error "no")⟩, {}⟩]
    let chunk := packet.drop 5 ++ packet ++ Packet.bytes ⟨11, 123456789, 0, [], 0, 0⟩
    let before := session.after done
    let fed := before.decoder.feed .returns chunk
    let shown := (before.perform ⟨⟨.feed chunk, .returns⟩, {}⟩).2
    Trace before.decoder chunk fed shown.records ∧
      fed.outcome = .ok [⟨.command, 11, 123456789, 0, "A"⟩, ⟨.command, 11, 123456789, 0, "A"⟩] ∧
      shown.records.map (fun record ↦ (record.level, record.message)) =
        [(.debug, "Decoding incoming data"), (.debug, "Frame complete"), (.debug, "Frame complete"),
          (.debug, "Declared size exceeds buffered bytes")] := by
  intro packet session done chunk before fed shown
  have hlistener : session.listener = .caller true := rfl
  have hchunk : chunk ≠ [] := by decide
  obtain ⟨-, -, htrace, -⟩ := @trace_perform session hlistener done .returns rfl chunk hchunk {}
  exact ⟨htrace, by decide +kernel, by decide +kernel⟩

end Session

end Rcon
