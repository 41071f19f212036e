import Rcon.Proofs.Decoder.Step

/-!
# Turns

A decoder at work, for a caller who need not do the same about every discard. A `Turn` is an
operation and what the caller does about a discard in it. That is all there is to say about the
caller, since a feed makes one discard at most (`Decoder.Feeds.discards_cases`); a caller who always
does the same is a special case (`Decoder.play_map`).

`Decoder.after` is the decoder as turns leave it. **What one turn keeps, turns keep**
(`Decoder.after_induction`).
-/

namespace Rcon

/-- An operation, and what the caller does about a discard in it. -/
structure Turn where
  /-- What is done to the decoder. -/
  operation : Operation
  /-- What the caller does about a discard. -/
  handler : DiscardHandler
  deriving DecidableEq, Repr

/-- The bytes that turns bring, in order. -/
def Turn.allBytes (turns : List Turn) : Bytes :=
  turns.flatMap fun turn ↦ turn.operation.bytes

namespace Decoder

/-- What a turn does to a decoder. -/
def perform (decoder : Decoder) (turn : Turn) : Feed :=
  decoder.step turn.handler turn.operation

/-- What turns do, one after the other. -/
def play (decoder : Decoder) : List Turn → List Feed
  | [] => []
  | turn :: rest => decoder.perform turn :: (decoder.perform turn).decoder.play rest

/-- The decoder as turns leave it. -/
def after (decoder : Decoder) (turns : List Turn) : Decoder :=
  decoder.atEnd (decoder.play turns)

/-- **A caller who always does the same** makes a run. -/
theorem play_map (decoder : Decoder) (handler : DiscardHandler) (operations : List Operation) :
    decoder.play (operations.map fun operation ↦ ⟨operation, handler⟩) =
      decoder.run handler operations := by
  induction operations generalizing decoder with
  | nil => rfl
  | cons operation rest ih =>
    rw [List.map_cons, play, run, ih]
    rfl

variable {decoder : Decoder}

/-- **What one turn keeps, turns keep.** -/
theorem after_induction {p : Decoder → Prop} (h : p decoder)
    (hperform : ∀ decoder turn, p decoder → p (decoder.perform turn).decoder) (turns : List Turn) :
    p (decoder.after turns) := by
  induction turns generalizing decoder with
  | nil => exact h
  | cons turn rest ih => exact ih (hperform decoder turn h)

/-- **More turns do what they do to the decoder as the others leave it.** -/
theorem play_append (decoder : Decoder) (turns rest : List Turn) :
    decoder.play (turns ++ rest) = decoder.play turns ++ (decoder.after turns).play rest := by
  induction turns generalizing decoder with
  | nil => rfl
  | cons turn turns ih =>
    rw [List.cons_append, play, play, ih]
    rfl

/-- The last of some turns finds the decoder as the others leave it. -/
theorem after_concat (decoder : Decoder) (turns : List Turn) (turn : Turn) :
    decoder.after (turns ++ [turn]) = ((decoder.after turns).perform turn).decoder := by
  induction turns generalizing decoder with
  | nil => rfl
  | cons first turns ih => exact ih (decoder.perform first).decoder

@[simp] theorem length_play (decoder : Decoder) (turns : List Turn) :
    (decoder.play turns).length = turns.length := by
  induction turns generalizing decoder with
  | nil => rfl
  | cons turn turns ih => rw [play, List.length_cons, ih, List.length_cons]

/-- What turns do is what one turn does, to the decoder as those before it leave it. -/
theorem exists_perform_of_mem_play {fed : Feed} {turns : List Turn} (h : fed ∈ decoder.play turns) :
    ∃ done turn, fed = (decoder.after done).perform turn := by
  induction turns generalizing decoder with
  | nil => exact absurd h List.not_mem_nil
  | cons turn rest ih =>
    rcases List.mem_cons.1 h with rfl | hmem
    · exact ⟨[], turn, rfl⟩
    · obtain ⟨done, next, hfed⟩ := ih hmem
      exact ⟨turn :: done, next, hfed⟩

@[simp] theorem config_after (decoder : Decoder) (turns : List Turn) :
    (decoder.after turns).config = decoder.config :=
  after_induction (p := fun after ↦ after.config = decoder.config) rfl
    (fun after turn h ↦ (config_step after turn.handler turn.operation).trans h) turns

/-- **Whatever is done to a new decoder, what is pending has to wait.** -/
theorem isWait_after (config : Config) (turns : List Turn) :
    (Head.read ((fresh config).after turns).pending).isWait = true :=
  after_induction (p := fun decoder ↦ (Head.read decoder.pending).isWait = true)
    (isWait_fresh config) (fun _ turn hwait ↦ isWait_step turn.handler turn.operation hwait) turns

end Decoder

end Rcon
