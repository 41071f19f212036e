import Rcon.Proofs.Decoder.Run

/-!
# How a stream is cut does not matter

A stream arrives in chunks that the sender has no say in. As long as no feed stalls, two ways of
cutting the same bytes give the same responses up to the first discard, and both or neither come to
one; without a discard they leave the same bytes pending (`feedAll_chunking`). This holds of any
bytes, whether or not a server would send them.

Behind a discard it cannot hold: what is dropped with a malformed packet is what happens to be
buffered, which is for the cuts to say.
-/

namespace Rcon

namespace Decoder

/-- A feed that does not stall drops bytes for nothing but a malformed packet. -/
theorem dropsMalformed_iff_of_stalls_eq_false {fed : Feed} (hstall : fed.stalls = false) :
    fed.dropsMalformed = true ↔ fed.discards ≠ [] := by
  rw [Feed.stalls, Bool.or_eq_false_iff, List.any_eq_false] at hstall
  rw [Feed.dropsMalformed, List.any_eq_true]
  constructor
  · rintro ⟨discard, hmem, -⟩
    exact List.ne_nil_of_mem hmem
  · intro hne
    obtain ⟨discard, hmem⟩ := List.exists_mem_of_ne_nil _ hne
    refine ⟨discard, hmem, ?_⟩
    have hreason := hstall.1 discard hmem
    rcases hdiscard : discard.reason with - | -
    · rfl
    · rw [hdiscard] at hreason
      exact absurd hreason (by simp)

/-- Feeds that do not stall come to a malformed packet exactly if they drop something. -/
theorem exists_dropsMalformed_iff {feeds : List Feed} (hstall : ∀ fed ∈ feeds, fed.stalls = false) :
    (∃ fed ∈ feeds, fed.dropsMalformed = true) ↔ ¬∀ fed ∈ feeds, fed.discards = [] := by
  constructor
  · rintro ⟨fed, hmem, hdrops⟩ hnone
    exact (dropsMalformed_iff_of_stalls_eq_false (hstall fed hmem)).1 hdrops (hnone fed hmem)
  · intro hsome
    obtain ⟨fed, hfed⟩ := Classical.not_forall.1 hsome
    obtain ⟨hmem, hdrops⟩ := Classical.not_imp.1 hfed
    exact ⟨fed, hmem, (dropsMalformed_iff_of_stalls_eq_false (hstall fed hmem)).2 hdrops⟩

/-- **Two ways of cutting the same bytes** come to a malformed packet together, return the same
responses up to and including the first discard, and without one leave the same bytes. -/
theorem feedAll_chunking (config : Config) {handler : DiscardHandler}
    (hquiet : handler.raised? = none) {chunks chunks' : List Bytes}
    (hcut : chunks.flatten = chunks'.flatten)
    (hstall : ∀ fed ∈ (fresh config).feedAll handler chunks, fed.stalls = false)
    (hstall' : ∀ fed ∈ (fresh config).feedAll handler chunks', fed.stalls = false) :
    ((∃ fed ∈ (fresh config).feedAll handler chunks, fed.dropsMalformed = true) ↔
        ∃ fed ∈ (fresh config).feedAll handler chunks', fed.dropsMalformed = true) ∧
      (Feed.throughDiscard ((fresh config).feedAll handler chunks)).flatMap Feed.responses =
        (Feed.throughDiscard ((fresh config).feedAll handler chunks')).flatMap Feed.responses ∧
      ((∀ fed ∈ (fresh config).feedAll handler chunks, fed.discards = []) →
        ((fresh config).atEnd ((fresh config).feedAll handler chunks)).pending =
          ((fresh config).atEnd ((fresh config).feedAll handler chunks')).pending) := by
  have hwait := isWait_fresh config
  obtain ⟨hresponses, hiff⟩ := responses_throughDiscard hwait hquiet hstall
  obtain ⟨hresponses', hiff'⟩ := responses_throughDiscard hwait hquiet hstall'
  rw [← hcut] at hresponses' hiff'
  refine ⟨?_, hresponses.trans hresponses'.symm, ?_⟩
  · rw [exists_dropsMalformed_iff hstall, exists_dropsMalformed_iff hstall', hiff, hiff']
  · intro hnone
    have hdrop := hiff.1 hnone
    have hdrop' : (drain handler ((fresh config).pending ++ chunks'.flatten)).discards = [] :=
      hcut ▸ hdrop
    rw [(feedAll_of_discards_eq_nil hwait hstall hdrop).2.2,
      (feedAll_of_discards_eq_nil hwait hstall' hdrop').2.2, hcut]

/-- A frame and a malformed packet, at once and cut within a number and between the last bytes. -/
theorem feedAll_chunking_malformed :
    let frame : Bytes := [12, 0, 0, 0, 2, 0xE1, 0xF5, 5, 0, 0, 0, 0, 0x6F, 0x6B, 0, 0]
    let packet : Bytes := [10, 0, 0, 0, 0xE7, 3, 0, 0, 0, 0, 0, 0, 0x41]
    let run := (fresh .default).feedAll .returns [frame ++ packet ++ [0x42, 1]]
    let run' := (fresh .default).feedAll .returns
      [frame.take 7, [], frame.drop 7 ++ packet, [0x42], [1]]
    ((∃ fed ∈ run, fed.dropsMalformed = true) ↔ ∃ fed ∈ run', fed.dropsMalformed = true) ∧
      (Feed.throughDiscard run).flatMap Feed.responses =
        (Feed.throughDiscard run').flatMap Feed.responses ∧
      ((∀ fed ∈ run, fed.discards = []) →
        ((fresh .default).atEnd run).pending = ((fresh .default).atEnd run').pending) :=
  feedAll_chunking .default (by decide) (by decide) (by decide +kernel) (by decide +kernel)

end Decoder

end Rcon
