import Rcon.Proofs.Config.Resolving
import Rcon.Proofs.Number.Exact

/-!
# A limit from the environment

What a text means as the bound on buffered bytes. Blanks around it make no difference
(`Config.Says`), and three kinds of text are told apart (`Config.resolve_limit`): digits are the
number that they spell, whatever zeros stand in front; digits behind a minus sign are refused,
however many they are and be they all zero; **and a text of blanks alone is no limit at all**, not a
zero.
-/

namespace Rcon

/-! ### Digits -/

theorem isBlank_of_isDigit {c : Char} (h : c.isDigit = true) : isBlank c = false := by
  have hlow : 48 ≤ c.toNat := (Char.isDigit_iff_toNat.1 h).1
  have hhigh : c.toNat ≤ 57 := (Char.isDigit_iff_toNat.1 h).2
  rw [Bool.eq_false_iff]
  simp only [isBlank, blankRanges, List.any_cons, List.any_nil, Bool.or_false, ne_eq,
    Bool.or_eq_true, Bool.and_eq_true, decide_eq_true_eq]
  omega

theorem isTrimmed_of_forall {cs : List Char} (hne : cs ≠ []) (h : ∀ c ∈ cs, isBlank c = false) :
    IsTrimmed cs :=
  ⟨hne, fun c hc ↦ h c (List.mem_of_head? hc), fun c hc ↦ h c (List.mem_of_getLast? hc)⟩

namespace Config

/-! ### Texts of variables -/

/-- A variable of blanks alone is as good as one that is unset. -/
theorem resolve_blank {blanks : List Char} (h : AreBlank blanks) (overrides : Fields)
    (env : Environment) :
    resolve overrides { env with maxPendingBytes := some (String.ofList blanks) } =
      resolve overrides { env with maxPendingBytes := none } := by
  have hsaid : ofEnvironment { env with maxPendingBytes := some (String.ofList blanks) } =
      ofEnvironment { env with maxPendingBytes := none } := by
    rw [ofEnvironment, ofEnvironment, says_iff.1 (.blank h)]
    rfl
  rw [resolve, resolve, layered, layered, hsaid]

/-- The values of the settings when only a limit is given, by a variable. -/
theorem merged_limit {left right text : List Char} (hleft : AreBlank left)
    (hright : AreBlank right) (htext : IsTrimmed text) :
    Values.merged [] { maxPendingBytes := some (padded left text right) } =
      ⟨.number (.ofNumeral text), .ofString "discard", .ofNat 30⟩ := by
  rw [Values.merged, says_iff.1 (.text hleft hright htext)]
  rfl

/-! ### Limits -/

/-- **A number that is not above zero is too small for a limit**, whatever else is wrong with it. -/
theorem tooSmall_mem_problems {number : Number} (h : number.IsNonpos) :
    .tooSmall (.above 0) ∈ limitRule.problems (.number number) := by
  cases number with
  | nan => exact h.elim
  | infinite negative =>
    obtain rfl : negative = true := h
    exact List.mem_cons_of_mem _ List.mem_cons_self
  | finite q =>
    have hadmits : (Bound.above 0).admits q = false := decide_eq_false (Rat.not_lt.2 h)
    have hcheck : limitRule.check (.number (.finite q)) =
        .error (Rule.wholeProblems (.above 0) (.finite q)) := by
      refine dif_neg fun hwhole ↦ ?_
      rw [(Rule.admits_iff hwhole.1).2 hwhole.2] at hadmits
      cases hadmits
    rw [Rule.problems, hcheck, Rule.wholeProblems, hadmits]
    exact List.mem_append_right _ List.mem_cons_self

/-- Where the other settings have their defaults, only the limit is complained of. -/
theorem complaints_limit (limit : Value) :
    (⟨limit, .ofString "discard", .ofNat 30⟩ : Values).complaints =
      texts limitKey (limitRule.problems limit) := by
  have hpolicy : StallPolicy.rule.problems (.ofString "discard") = [] := by decide +kernel
  have hpreview : previewRule.problems (.ofNat 30) = [] := by decide +kernel
  rw [Values.complaints, hpolicy, hpreview]
  exact (List.append_nil _).trans (List.append_nil _)

/-- A limit that is not above zero is refused. -/
theorem resolve_eq_error_of_isNonpos {env : Environment} {number : Number} (h : number.IsNonpos)
    (hmerged : Values.merged [] env = ⟨.number number, .ofString "discard", .ofNat 30⟩) :
    resolve [] env =
      .error (.invalidConfig (texts limitKey (limitRule.problems (.number number)))) := by
  have hkeys : (Fields.keys []).Nodup := List.nodup_nil
  have hnone : ∀ config, ¬(Values.merged [] env).Spell config := by
    intro config hspell
    have hdo : (Values.merged [] env).LimitWillDo := ⟨_, config.maxPendingBytes_pos, hspell.limit⟩
    rw [← Values.problems_limit_eq_nil_iff, hmerged] at hdo
    exact List.ne_nil_of_mem (tooSmall_mem_problems h) hdo
  rw [resolve_eq_error hkeys env hnone, hmerged, complaints_limit]

/-- **What a text means as a limit.** A number that is within the range of exact whole numbers is
read as it is, whatever zeros stand in front of its digits and whatever blanks around them. Digits
behind a minus sign are refused, with nothing to complain of but the limit. And blanks alone are as
good as no text, whatever the overrides and the other variables say. -/
theorem resolve_limit :
    (∀ (n zeros : Nat) (left right : List Char) (hpos : 0 < n), n ≤ 9007199254740991 →
        AreBlank left → AreBlank right →
        resolve []
            { maxPendingBytes := some
                (padded left (List.replicate zeros '0' ++ Nat.toDigits 10 n) right) } =
          .ok ⟨n, .discard, 30, hpos⟩) ∧
      (∀ digits left right : List Char, digits ≠ [] → (∀ c ∈ digits, c.isDigit = true) →
        AreBlank left → AreBlank right →
        ∃ problems, .tooSmall (.above 0) ∈ problems ∧
          resolve [] { maxPendingBytes := some (padded left ('-' :: digits) right) } =
            .error (.invalidConfig (texts limitKey problems))) ∧
      ∀ (blanks : List Char) (overrides : Fields) (env : Environment), AreBlank blanks →
        resolve overrides { env with maxPendingBytes := some (String.ofList blanks) } =
          resolve overrides { env with maxPendingBytes := none } := by
  refine ⟨fun n zeros left right hpos hle hleft hright ↦ ?_,
    fun digits left right hne hdigits hleft hright ↦ ?_,
    fun blanks overrides env hblank ↦ resolve_blank hblank overrides env⟩
  · have hbound : (n : Int) < Number.exactBound := by
      rw [Number.exactBound]
      omega
    have htext := Number.isDigit_zeros_append_toDigits zeros n
    have hne : List.replicate zeros '0' ++ Nat.toDigits 10 n ≠ [] :=
      List.append_ne_nil_of_right_ne_nil _ Nat.toDigits_ne_nil
    have hkeys : (Fields.keys []).Nodup := List.nodup_nil
    rw [resolve_eq_ok_iff hkeys,
      merged_limit hleft hright
        (isTrimmed_of_forall hne fun c hc ↦ isBlank_of_isDigit (htext c hc)),
      Number.ofNumeral_zeros_append_toDigits hbound]
    exact ⟨rfl, rfl, rfl⟩
  · have htext : ∀ c ∈ '-' :: digits, isBlank c = false :=
      List.forall_mem_cons.2 ⟨by decide, fun c hc ↦ isBlank_of_isDigit (hdigits c hc)⟩
    have hmerged := merged_limit hleft hright (isTrimmed_of_forall (List.cons_ne_nil _ _) htext)
    have hnonpos := Number.isNonpos_ofNumeral_minus hdigits hne
    exact ⟨_, tooSmall_mem_problems hnonpos, resolve_eq_error_of_isNonpos hnonpos hmerged⟩

/-- The greatest exact limit behind two zeros, between a no-break space and a byte order mark; a
zero with a minus sign; and two line terminators beside a policy. -/
theorem resolve_limit_greatest :
    AreBlank ['\u00A0'] ∧ AreBlank ['\uFEFF'] ∧ AreBlank ['\u2028', '\n'] ∧
      resolve [] { maxPendingBytes := some "\u00A0009007199254740991\uFEFF" } =
        .ok ⟨9007199254740991, .discard, 30, by decide⟩ ∧
      (∃ problems, .tooSmall (.above 0) ∈ problems ∧
        resolve [] { maxPendingBytes := some "-0" } =
          .error (.invalidConfig (texts limitKey problems))) ∧
      resolve [] { maxPendingBytes := some "\u2028\n", stallPolicy := some "throw" } =
        resolve [] { maxPendingBytes := none, stallPolicy := some "throw" } := by
  obtain ⟨hread, hrefused, hblank⟩ := resolve_limit
  have hleft : AreBlank ['\u00A0'] := by decide
  have hright : AreBlank ['\uFEFF'] := by decide
  have hlines : AreBlank ['\u2028', '\n'] := by decide
  have htext : padded ['\u00A0'] (List.replicate 2 '0' ++ Nat.toDigits 10 9007199254740991)
      ['\uFEFF'] = "\u00A0009007199254740991\uFEFF" := by decide +kernel
  refine ⟨hleft, hright, hlines, ?_, ?_, ?_⟩
  · exact htext ▸ hread 9007199254740991 2 _ _ (by decide) (by decide) hleft hright
  · have hdigits : ∀ c ∈ ['0'], c.isDigit = true := List.forall_mem_singleton.2 rfl
    exact hrefused ['0'] [] [] (by decide) hdigits (by decide) (by decide)
  · exact hblank _ [] { stallPolicy := some "throw" } hlines

end Config

end Rcon
