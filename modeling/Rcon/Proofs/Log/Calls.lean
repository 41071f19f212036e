import Rcon.Log.Logger
import Rcon.Proofs.Log.Sinks
import Rcon.Proofs.Value.Display

/-!
# Where log calls go

What a log call does after any calls before it, of whatever components and in whatever environments
(`Call.routed_after`). Below the threshold it does nothing. **Otherwise one line reaches one sink**,
and which sink that is say the environment of the call and the level of its method: the fields of
the record have no part in it, even where they are named like the level or the component. Only in
plain text there is another case: where a value has no text the call fails, and then nothing is
written and no directory is made.

The fields of a record are data of any shape (`Value`), at any depth. Values that are more than
data, such as functions and objects that contain themselves, are not spoken of: whether these have a
text is another matter, in plain text as in JSON.

Directories are made once, and before a line goes into them, over all calls together. One call keeps
them in order (`Call.inOrder_effects`), and so do all of them (`Call.inOrder_effectsOf`).
-/

namespace Rcon.Log

/-! ### Lines -/

namespace Entry

/-- Fields that have texts in a plain line have them one by one. -/
theorem display?_ne_none_of_plainFields? {entry : Fields} {shown : Units}
    (h : plainFields? entry = some shown) {f : Units × Value} (hmem : f ∈ entry)
    (hleading : isLeading f.1 = false) : f.2.display? ≠ none := by
  induction entry generalizing shown with
  | nil => cases hmem
  | cons g rest ih =>
    obtain ⟨key, value⟩ := g
    rw [plainFields?] at h
    obtain rfl | hmem := List.mem_cons.1 hmem
    · rw [hleading, if_neg Bool.false_ne_true] at h
      intro hnone
      rw [hnone] at h
      cases h
    · split at h
      · exact ih h hmem
      · simp only [Option.bind_eq_bind, Option.bind_eq_some_iff] at h
        obtain ⟨-, -, others, hothers, -⟩ := h
        exact ih hothers hmem

/-- **An entry has no plain line if a value of it has no text**, and only then. -/
theorem plain?_eq_none_iff {entry : Fields} (hnodup : entry.keys.Nodup) :
    plain? entry = none ↔ ∃ f ∈ entry, f.2.IsTextless := by
  constructor
  · intro hnone
    refine Classical.byContradiction fun hall ↦ ?_
    have hshown : ∀ f ∈ entry, f.2.display?.isSome = true := fun f hf ↦
      Option.isSome_iff_ne_none.2 fun hdisplay ↦
        hall ⟨f, hf, (Value.display?_eq_none_iff f.2).1 hdisplay⟩
    have hsome : (plain? entry).isSome = true := isSome_line? .plain hshown
    rw [hnone] at hsome
    cases hsome
  · -- A key with a place of its own is found there, because no key is there twice.
    rintro ⟨⟨key, value⟩, hmem, htextless⟩
    have hnone := (Value.display?_eq_none_iff value).2 htextless
    have hget : entry.get key = value := by
      rw [Fields.get, Fields.get?_of_mem hnodup hmem]
      rfl
    cases hplain : plain? entry with
    | none => rfl
    | some line =>
      simp only [plain?, Option.bind_eq_bind, Option.bind_eq_some_iff, Option.pure_def,
        Option.some.injEq] at hplain
      obtain ⟨time, htime, level, hlevel, component, hcomponent, message, hmessage, others, hothers,
        -⟩ := hplain
      cases hleading : isLeading key with
      | false => exact absurd hnone (display?_ne_none_of_plainFields? hothers hmem hleading)
      | true =>
        simp only [isLeading, Bool.or_eq_true, decide_eq_true_eq] at hleading
        rw [← hget] at hnone
        obtain ((rfl | rfl) | rfl) | rfl := hleading
        · exact absurd (htime.symm.trans hnone) (Option.some_ne_none _)
        · exact absurd (hlevel.symm.trans hnone) (Option.some_ne_none _)
        · exact absurd (hcomponent.symm.trans hnone) (Option.some_ne_none _)
        · exact absurd (hmessage.symm.trans hnone) (Option.some_ne_none _)

end Entry

/-! ### Calls -/

/-- A call of a method of a logger. -/
structure Call where
  /-- The time. -/
  time : Timestamp
  /-- The environment that it finds. -/
  environment : Environment
  /-- The component of the logger. -/
  component : String
  /-- The method and what is passed to it: a message, and fields of data. -/
  record : Record

namespace Call

/-- What the logger of a call remembers when these directories have been made. -/
def journal (call : Call) (made : List String) : Journal :=
  ⟨call.time, made⟩

/-- The settings that a call finds. -/
def settings (call : Call) : Settings :=
  Settings.ofEnvironment call.environment

/-- What becomes of a call when these directories have been made. -/
def step (call : Call) (made : List String) : Except Misuse (Logger × Reply) :=
  Logger.step ⟨call.component, call.journal made⟩ ⟨call.environment, some (.write call.record)⟩

/-- What a call does, or how it fails. -/
def outcome (call : Call) (made : List String) : Except Misuse (List Effect) :=
  (call.step made).map fun stepped ↦ stepped.2.effects

/-- The effects of a call: none if it fails. -/
def effects (call : Call) (made : List String) : List Effect :=
  match call.outcome made with
  | .ok effects => effects
  | .error _ => []

/-- The directories that are remembered after a call. -/
def remembers (call : Call) (made : List String) : List String :=
  match call.step made with
  | .ok stepped => stepped.1.journal.prepared
  | .error _ => made

/-- The effects of calls one after the other, of all loggers together. -/
def effectsOf (made : List String) : List Call → List Effect
  | [] => []
  | call :: rest => call.effects made ++ effectsOf (call.remembers made) rest

/-- The directories that are remembered after calls. -/
def remembered (calls : List Call) : List String :=
  calls.foldl (fun made call ↦ call.remembers made) []

/-- The entry that is to be written. -/
def entry (call : Call) : Fields :=
  Entry.ofRecord call.time call.component call.record

/-- Has a call no line? In plain text it has none if a value of its entry has no text. -/
def IsTextless (call : Call) : Prop :=
  call.environment.logJson ≠ some "1" ∧ ∃ f ∈ call.entry, f.2.IsTextless

/-- The calls without a line are the textless ones. -/
theorem line?_eq_none_iff (call : Call) :
    Entry.line? call.settings.format call.entry = none ↔ call.IsTextless := by
  have hnodup : call.entry.keys.Nodup := by
    refine Fields.nodup_keys_merge ?_ _
    exact (by decide : [Entry.timeKey, Entry.levelKey, Entry.componentKey, Entry.messageKey].Nodup)
  by_cases hjson : call.environment.logJson = some "1"
  · rw [settings, Settings.ofEnvironment, if_pos hjson]
    exact iff_of_false (Option.some_ne_none _) fun h ↦ h.1 hjson
  · rw [settings, Settings.ofEnvironment, if_neg hjson]
    exact (Entry.plain?_eq_none_iff hnodup).trans ⟨fun h ↦ ⟨hjson, h⟩, And.right⟩

/-- A call that is not to be written without a line does what the journal logs. -/
theorem outcome_of_log {call : Call} {made : List String} {effects : List Effect}
    {journal : Journal}
    (hline : ¬(call.settings.admits call.record.level ∧
      Entry.line? call.settings.format call.entry = none))
    (hlog : (call.journal made).log call.settings call.component call.record = (effects, journal)) :
    call.outcome made = .ok effects ∧ call.remembers made = journal.prepared := by
  have hwrites : call.step made =
      .ok (⟨call.component, ((call.journal made).log call.settings call.component call.record).2⟩,
        { effects := ((call.journal made).log call.settings call.component call.record).1 }) :=
    if_neg hline
  rw [outcome, remembers, hwrites, hlog]
  exact ⟨rfl, rfl⟩

/-- **What a call does**, by its level and its line. -/
theorem step_cases (call : Call) (made : List String) :
    let least := call.settings.threshold.rank
    let sink := Sink.of call.environment call.record.level
    (call.record.level.rank < least ∧ call.outcome made = .ok [] ∧ call.remembers made = made) ∨
      (least ≤ call.record.level.rank ∧ call.IsTextless ∧ call.outcome made = .error .noText ∧
        call.remembers made = made) ∨
      least ≤ call.record.level.rank ∧ ¬call.IsTextless ∧
        ∃ line, Entry.line? call.settings.format call.entry = some line ∧
          call.outcome made = .ok ((sink.missing made).map .makeDirectory ++ [sink.event line]) ∧
          call.remembers made = sink.missing made ++ made := by
  intro least sink
  by_cases hadmits : least ≤ call.record.level.rank
  · right
    have htrue : call.settings.admits call.record.level = true := decide_eq_true hadmits
    cases hline : Entry.line? call.settings.format call.entry with
    | none =>
      have hstep : call.step made = .error .noText := if_pos ⟨htrue, hline⟩
      refine .inl ⟨hadmits, call.line?_eq_none_iff.1 hline, ?_, ?_⟩
      · rw [outcome, hstep]
        rfl
      · rw [remembers, hstep]
    | some line =>
      have hlog : (call.journal made).log call.settings call.component call.record =
          ((sink.missing made).map .makeDirectory ++ [sink.event line],
            { call.journal made with prepared := sink.missing made ++ made }) := by
        have hwritten : (call.journal made).line? call.settings.format call.component call.record =
            some line := hline
        rw [Journal.log, if_pos htrue, hwritten]
        exact Journal.write_eq _ call.environment call.record.level line
      have htext : ¬call.IsTextless := fun h ↦ nomatch hline.symm.trans (call.line?_eq_none_iff.2 h)
      exact .inr ⟨hadmits, htext, line, rfl,
        outcome_of_log (fun h ↦ nomatch hline.symm.trans h.2) hlog⟩
  · left
    have hfalse : call.settings.admits call.record.level = false := decide_eq_false hadmits
    have hlog : (call.journal made).log call.settings call.component call.record =
        ([], call.journal made) := by
      rw [Journal.log, hfalse, if_neg Bool.false_ne_true]
    exact ⟨Nat.lt_of_not_le hadmits, outcome_of_log (fun h ↦ nomatch hfalse.symm.trans h.1) hlog⟩

/-- **What becomes of a call tells the cases apart.** -/
theorem outcome_spec (call : Call) (made : List String) :
    let least := call.settings.threshold.rank
    let sink := Sink.of call.environment call.record.level
    (call.outcome made = .ok [] ↔ call.record.level.rank < least) ∧
      (call.outcome made = .error .noText ↔ least ≤ call.record.level.rank ∧ call.IsTextless) ∧
      (least ≤ call.record.level.rank → ¬call.IsTextless →
        ∃ line, Entry.line? call.settings.format call.entry = some line ∧
          call.outcome made =
            .ok ((sink.missing made).map .makeDirectory ++ [sink.event line])) := by
  intro least sink
  obtain ⟨hlevel, houtcome, -⟩ | ⟨hlevel, htextless, houtcome, -⟩ |
    ⟨hlevel, htext, line, hline, houtcome, -⟩ := call.step_cases made
  · have hnot : ¬least ≤ call.record.level.rank := Nat.not_le.2 hlevel
    exact ⟨iff_of_true houtcome hlevel,
      iff_of_false (fun h ↦ nomatch houtcome.symm.trans h) fun h ↦ hnot h.1,
      fun h ↦ absurd h hnot⟩
  · exact ⟨iff_of_false (fun h ↦ nomatch houtcome.symm.trans h) (Nat.not_lt.2 hlevel),
      iff_of_true houtcome ⟨hlevel, htextless⟩, fun _ h ↦ absurd htextless h⟩
  · have hsome : call.outcome made ≠ .ok [] := fun h ↦
      List.append_ne_nil_of_right_ne_nil _ (List.cons_ne_nil _ _)
        (Except.ok.inj (houtcome.symm.trans h))
    exact ⟨iff_of_false hsome (Nat.not_lt.2 hlevel),
      iff_of_false (fun h ↦ nomatch houtcome.symm.trans h) fun h ↦ htext h.2,
      fun _ _ ↦ ⟨line, hline, houtcome⟩⟩

/-! ### Calls one after the other -/

/-- **A call makes directories in order**, and remembers them. -/
theorem inOrder_effects (call : Call) (made : List String) :
    Effect.InOrder made (call.effects made) ∧
      call.remembers made = (directories (call.effects made)).reverse ++ made := by
  rw [effects]
  obtain ⟨-, houtcome, hremembers⟩ | ⟨-, -, houtcome, hremembers⟩ |
    ⟨-, -, line, -, houtcome, hremembers⟩ := call.step_cases made
  · rw [houtcome, hremembers]
    exact ⟨trivial, rfl⟩
  · rw [houtcome, hremembers]
    exact ⟨trivial, rfl⟩
  · rw [houtcome, hremembers]
    exact Sink.inOrder_event _ made line

/-- Calls one after the other make directories in order, and remember them. -/
theorem inOrder_effectsOf (calls : List Call) (made : List String) :
    Effect.InOrder made (effectsOf made calls) ∧
      calls.foldl (fun made call ↦ call.remembers made) made =
        (directories (effectsOf made calls)).reverse ++ made := by
  induction calls generalizing made with
  | nil => exact ⟨trivial, rfl⟩
  | cons call rest ih =>
    obtain ⟨hfirst, hremembers⟩ := call.inOrder_effects made
    obtain ⟨hrest, hremembered⟩ := ih (call.remembers made)
    refine ⟨hfirst.append (hremembers ▸ hrest), ?_⟩
    rw [List.foldl_cons, hremembered, effectsOf, directories_append, List.reverse_append,
      List.append_assoc, ← hremembers]

/-- **Where a call goes**, after any calls, with no directory made before them, and whatever data
its fields hold. The threshold of its environment is one level. Below it the call does nothing, and
only there. From it on the call fails in plain text if a value of its entry has no text, and only
then; else it makes its directory, if none of the calls has, and one line reaches the sink that the
environment and the level of the method name. And over all the calls no directory is made twice, and
each is made before anything is written into it. -/
theorem routed_after (calls : List Call) (call : Call) :
    let effects := effectsOf [] calls
    let outcome := call.outcome (remembered calls)
    let sink := Sink.of call.environment call.record.level
    ∃ threshold : Level,
      (∀ level, IsThreshold call.environment level ↔ level = threshold) ∧
        (outcome = .ok [] ↔ call.record.level.rank < threshold.rank) ∧
        (outcome = .error .noText ↔
          threshold.rank ≤ call.record.level.rank ∧ call.IsTextless) ∧
        (threshold.rank ≤ call.record.level.rank → ¬call.IsTextless →
          ∃ line, Entry.line? call.settings.format call.entry = some line ∧
            outcome =
              .ok ((sink.missing (directories effects)).map .makeDirectory ++ [sink.event line])) ∧
        (directories effects).Nodup ∧
        ∀ front path text back, effects = front ++ .append path text :: back →
          .makeDirectory (parentDirectory path) ∈ front := by
  intro effects outcome sink
  obtain ⟨hinOrder, hremembered⟩ := inOrder_effectsOf calls []
  have hmissing : sink.missing (remembered calls) = sink.missing (directories effects) := by
    refine sink.missing_congr fun path ↦ ?_
    rw [remembered, hremembered, List.append_nil, List.mem_reverse]
  obtain ⟨hnothing, hfails, hline⟩ := call.outcome_spec (remembered calls)
  exact ⟨call.settings.threshold, fun level ↦ isThreshold_iff, hnothing,
    hfails, hmissing ▸ hline, hinOrder.nodup.1, fun front path text back heffects ↦
      (hinOrder.mem_of_append heffects).resolve_left List.not_mem_nil⟩

example :
    let call (path : String) (level : Level) : Call :=
      ⟨⟨"", by decide⟩, { logFile := some path }, "decoder", ⟨level, "", []⟩⟩
    directories (effectsOf [] [call "logs/a.log" .warn, call "other/b.log" .debug,
      call "logs/c.log" .info]) = ["logs"] := by
  decide +kernel

/-- A call at the threshold that yields nothing: it is passed an object with a field `toString`. -/
theorem effects_textless :
    let record : Record :=
      ⟨.info, "hello", [(Units.ofString "x", .object [(Value.textKey, .ofInt 1)])]⟩
    let call : Call := ⟨⟨"2026-01-01T00:00:00.000Z", by decide⟩, {}, "decoder", record⟩
    IsThreshold call.environment .info ∧ ¬call.record.level.rank < Level.info.rank ∧
      call.outcome (remembered []) = .error .noText ∧ effectsOf [] [call] = [] := by
  intro record call
  have houtcome : call.outcome (remembered []) = .error .noText := by rfl
  exact ⟨isThreshold_iff.2 rfl, by decide, houtcome, by decide +kernel⟩

end Call

end Rcon.Log
