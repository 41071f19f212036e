import Rcon.Config.Resolve
import Rcon.Proofs.Value.Fields

/-!
# A configuration, setting by setting

Each setting has a value before anything is checked: that of an override that gives one, else that
of the environment, else the default (`Config.Values.Merged`). **Which places are asked is decided
for each setting by itself**, and so is whether its value will do.

* A variable says the text that is left between the blanks around it, and nothing if no text is left
  (`Config.Says`). There is one way to read a variable, and it is the code's (`Config.says_iff`).
* A rule accepts what a setting may be written as, and finds something wrong with all else
  (`Rule.Accepts`).
* So a configuration is resolved just if all three values will do, and it is the one that they
  spell; otherwise every setting whose value will not do is named (`Config.resolve_by_setting`).

What is overridden is not asked for, so nothing that it holds can be wrong, and a configuration that
was resolved once is resolved again as it is.
-/

namespace Rcon

/-! ### Blanks -/

/-- Is every character of a text blank? -/
def AreBlank (cs : List Char) : Prop :=
  ∀ c ∈ cs, isBlank c = true

instance (cs : List Char) : Decidable (AreBlank cs) :=
  List.decidableBAll (fun c ↦ isBlank c = true) cs

/-- Does a text begin and end with a character that is not blank? -/
structure IsTrimmed (cs : List Char) : Prop where
  /-- There is a text. -/
  ne_nil : cs ≠ []
  /-- The first character is not blank. -/
  head : ∀ c, cs.head? = some c → isBlank c = false
  /-- The last character is not blank. -/
  last : ∀ c, cs.getLast? = some c → isBlank c = false

theorem dropWhile_isBlank_of_head {cs : List Char}
    (h : ∀ c, cs.head? = some c → isBlank c = false) : cs.dropWhile isBlank = cs := by
  cases cs with
  | nil => rfl
  | cons c rest =>
    refine List.dropWhile_cons_of_neg ?_
    rw [h c rfl]
    exact Bool.false_ne_true

theorem IsTrimmed.trimBlank_eq {cs : List Char} (h : IsTrimmed cs) : trimBlank cs = cs := by
  have hlast : ∀ c, cs.reverse.head? = some c → isBlank c = false := by
    rw [List.head?_reverse]
    exact h.last
  rw [trimBlank, dropWhile_isBlank_of_head h.head, dropWhile_isBlank_of_head hlast,
    List.reverse_reverse]

theorem isBlank_of_head?_dropWhile {cs : List Char} {c : Char}
    (h : (cs.dropWhile isBlank).head? = some c) : isBlank c = false := by
  have hnot := List.head?_dropWhile_not isBlank cs
  rwa [h] at hnot

theorem areBlank_takeWhile (cs : List Char) : AreBlank (cs.takeWhile isBlank) :=
  fun c hc ↦ List.all_eq_true.1 List.all_takeWhile c hc

/-- **What trimming leaves is what there is between the blanks on both sides.** -/
theorem exists_append_trimBlank_append (cs : List Char) :
    ∃ left right, AreBlank left ∧ AreBlank right ∧ cs = left ++ trimBlank cs ++ right ∧
      (trimBlank cs = [] ∨ IsTrimmed (trimBlank cs)) := by
  let rest := cs.dropWhile isBlank
  have hcs : cs.takeWhile isBlank ++ rest = cs := List.takeWhile_append_dropWhile
  have hrest : rest.reverse.takeWhile isBlank ++ rest.reverse.dropWhile isBlank = rest.reverse :=
    List.takeWhile_append_dropWhile
  have hsplit : trimBlank cs ++ (rest.reverse.takeWhile isBlank).reverse = rest := by
    rw [trimBlank, ← List.reverse_append, hrest, List.reverse_reverse]
  refine ⟨cs.takeWhile isBlank, (rest.reverse.takeWhile isBlank).reverse, areBlank_takeWhile cs,
    fun c hc ↦ areBlank_takeWhile _ c (List.mem_reverse.1 hc), ?_, ?_⟩
  · rw [List.append_assoc, hsplit, hcs]
  · by_cases hne : trimBlank cs = []
    · exact .inl hne
    · refine .inr ⟨hne, fun c hc ↦ ?_, fun c hc ↦ ?_⟩
      · have hhead : rest.head? = some c := by
          rw [← hsplit, List.head?_append, hc]
          rfl
        exact isBlank_of_head?_dropWhile hhead
      · have hhead : (rest.reverse.dropWhile isBlank).head? = some c := by
          rw [← List.getLast?_reverse]
          exact hc
        exact isBlank_of_head?_dropWhile hhead

/-! ### Rules -/

namespace Rule

variable {α : Type} {rule : Rule α} {write : α → Value}

/-- All that is wrong with a value. -/
def problems (rule : Rule α) (value : Value) : List Problem :=
  match rule.check value with
  | .ok _ => []
  | .error problems => problems

/-- A rule for values that are written in a certain way. -/
structure Accepts (rule : Rule α) (write : α → Value) : Prop where
  /-- A value is accepted just if it is written so, and means what was written. -/
  ok_iff : ∀ value a, rule.check value = .ok a ↔ value = write a
  /-- Something is wrong with every other. -/
  ne_nil : ∀ value, rule.check value ≠ .error []

theorem Accepts.check_write (h : rule.Accepts write) (a : α) : rule.check (write a) = .ok a :=
  (h.ok_iff _ _).2 rfl

/-- **A rule finds nothing wrong with the values that it accepts**, and with no others. -/
theorem Accepts.problems_eq_nil_iff (h : rule.Accepts write) (value : Value) :
    rule.problems value = [] ↔ ∃ a, value = write a := by
  rw [problems]
  rcases hcheck : rule.check value with found | a
  · constructor
    · rintro rfl
      exact absurd hcheck (h.ne_nil value)
    · rintro ⟨a, rfl⟩
      rw [h.check_write] at hcheck
      cases hcheck
  · exact iff_of_true rfl ⟨a, (h.ok_iff value a).1 hcheck⟩

/-- A rational is written as a natural number if it is whole and its numerator is that number. -/
theorem finite_eq_ofNat_iff {q : Rat} {n : Nat} :
    Value.number (.finite q) = .ofNat n ↔ q.den = 1 ∧ q.num = n := by
  rw [Value.ofNat, Number.ofNat, Number.ofInt, Value.number.injEq, Number.finite.injEq]
  constructor
  · rintro rfl
    exact ⟨Rat.den_intCast _, Rat.num_intCast _⟩
  · rintro ⟨hden, hnum⟩
    exact Rat.ext (by rw [hnum, Rat.num_intCast]) (by rw [hden, Rat.den_intCast])

theorem admits_iff {bound : Bound} {q : Rat} (hden : q.den = 1) :
    bound.admits q = true ↔ (bound.least : Int) ≤ q.num := by
  obtain ⟨m, rfl⟩ : ∃ m : Int, q = m :=
    ⟨q.num, Rat.ext (Rat.num_intCast _).symm (by rw [hden, Rat.den_intCast])⟩
  rw [Rat.num_intCast]
  cases bound with
  | above n =>
    rw [Bound.admits, Bound.least, decide_eq_true_iff, ← Rat.intCast_natCast,
      Rat.intCast_lt_intCast]
    omega
  | atLeast n =>
    rw [Bound.admits, Bound.least, decide_eq_true_iff, ← Rat.intCast_natCast,
      Rat.intCast_le_intCast]

/-- **Whole numbers within a bound** are written as they are. -/
theorem accepts_whole (bound : Bound) : (whole bound).Accepts fun n ↦ .ofNat n.1 where
  ok_iff value n := by
    cases value with
    | number number =>
      cases number with
      | finite q =>
        rw [finite_eq_ofNat_iff]
        show (dite _ _ _ = _ ↔ _)
        split
        · next h =>
          rw [Except.ok.injEq, Subtype.ext_iff]
          show q.num.toNat = n.1 ↔ _
          omega
        · next h =>
          refine iff_of_false (fun heq ↦ nomatch heq) fun hq ↦ h ⟨hq.1, ?_⟩
          rw [hq.2]
          exact Int.ofNat_le.2 n.2
      | nan => exact iff_of_false (fun heq ↦ nomatch heq) fun heq ↦ nomatch heq
      | infinite negative => exact iff_of_false (fun heq ↦ nomatch heq) fun heq ↦ nomatch heq
    | _ => exact iff_of_false (fun heq ↦ nomatch heq) fun heq ↦ nomatch heq
  ne_nil value := by
    cases value with
    | number number =>
      cases number with
      | finite q =>
        show dite _ _ _ ≠ _
        split
        · exact fun heq ↦ nomatch heq
        · next h =>
          -- What is not accepted is not whole or is out of the bound.
          rw [ne_eq, Except.error.injEq, wholeProblems, List.append_eq_nil_iff]
          simp only [ite_eq_left_iff, List.cons_ne_nil, imp_false, Decidable.not_not]
          exact fun ⟨hden, hadmits⟩ ↦ h ⟨hden, (admits_iff hden).1 hadmits⟩
      | nan => exact fun heq ↦ nomatch heq
      | infinite negative => exact fun heq ↦ nomatch heq
    | _ => exact fun heq ↦ nomatch heq

/-- **Named choices** are written by their names, where each choice is found by its own. -/
theorem accepts_choice {choices : List (String × α)} {name : α → String}
    (hname : ∀ c ∈ choices, name c.2 = c.1)
    (hfind : ∀ a, choices.find? (fun c ↦ Units.ofString c.1 = Units.ofString (name a)) =
      some (name a, a)) :
    (choice choices).Accepts fun a ↦ .ofString (name a) where
  ok_iff value a := by
    cases value with
    | text u =>
      rw [Value.ofString, Value.text.injEq, choice]
      dsimp only
      split
      · next c hu =>
        rw [Except.ok.injEq]
        constructor
        · rintro rfl
          have hc := List.find?_some hu
          rw [decide_eq_true_eq] at hc
          rw [hname c (List.mem_of_find?_eq_some hu), hc]
        · rintro rfl
          exact congrArg Prod.snd (Option.some.inj (hu.symm.trans (hfind a)))
      · next hu =>
        refine iff_of_false (fun heq ↦ nomatch heq) ?_
        rintro rfl
        exact nomatch (hfind a).symm.trans hu
    | _ => exact iff_of_false (fun heq ↦ nomatch heq) fun heq ↦ nomatch heq
  ne_nil value := by
    cases value with
    | text u =>
      rw [choice]
      dsimp only
      split
      · exact fun heq ↦ nomatch heq
      · exact fun heq ↦ nomatch heq
    | _ => exact fun heq ↦ nomatch heq

theorem accepts_policy : StallPolicy.rule.Accepts fun policy ↦ .ofString policy.name :=
  accepts_choice (by decide) fun policy ↦ by cases policy <;> decide

end Rule

namespace Config

theorem accepts_limit : limitRule.Accepts fun n ↦ .ofNat n.1 :=
  Rule.accepts_whole (.above 0)

theorem accepts_preview : previewRule.Accepts fun n ↦ .ofNat n.1 :=
  Rule.accepts_whole (.atLeast 0)

/-! ### Variables -/

/-- A text with something on either side of it. -/
def padded (left text right : List Char) : String :=
  String.ofList (left ++ text ++ right)

/-- What a variable says, if it says anything. -/
inductive Says : Option String → Option (List Char) → Prop
  /-- A variable that is unset says nothing. -/
  | unset : Says none none
  /-- Blanks alone say nothing either. -/
  | blank {blanks : List Char} (h : AreBlank blanks) : Says (some (String.ofList blanks)) none
  /-- A text is what there is between blanks. -/
  | text {left text right : List Char} (hleft : AreBlank left) (hright : AreBlank right)
      (htext : IsTrimmed text) : Says (some (padded left text right)) (some text)

theorem Says.trimmed?_eq {setting : Option String} {said : Option (List Char)}
    (h : Says setting said) : trimmed? setting = said := by
  cases h with
  | unset => rfl
  | blank h =>
    rw [trimmed?, Option.map_some, String.toList_ofList, trimBlank_eq_nil h]
    rfl
  | @text left text right hleft hright htext =>
    have htrim : trimBlank (padded left text right).toList = text := by
      rw [padded, String.toList_ofList, trimBlank_padded hleft hright, htext.trimBlank_eq]
    rw [trimmed?, Option.map_some, htrim, Option.filter_some, if_pos (decide_eq_true htext.ne_nil)]

/-- **What a variable says is what trimming leaves**, and nothing else. -/
theorem says_iff {setting : Option String} {said : Option (List Char)} :
    Says setting said ↔ trimmed? setting = said := by
  refine ⟨Says.trimmed?_eq, ?_⟩
  rintro rfl
  rcases setting with - | content
  · exact .unset
  · obtain ⟨left, right, hleft, hright, hcontent, htrim⟩ :=
      exists_append_trimBlank_append content.toList
    have hpadded : content = padded left (trimBlank content.toList) right := by
      rw [padded, ← hcontent, String.ofList_toList]
    rcases htrim with hnil | htrim
    · have hblank : AreBlank (left ++ trimBlank content.toList ++ right) := by
        rw [hnil, List.append_nil]
        exact List.forall_mem_append.2 ⟨hleft, hright⟩
      have hsaid := Says.blank hblank
      rw [← padded, ← hpadded] at hsaid
      rwa [hsaid.trimmed?_eq]
    · have hsaid := Says.text hleft hright htrim
      rw [← hpadded] at hsaid
      rwa [hsaid.trimmed?_eq]

/-! ### The values of the settings -/

/-- The values of the three settings, which need not make sense. -/
structure Values where
  /-- The bound on buffered bytes. -/
  limit : Value
  /-- The policy. -/
  policy : Value
  /-- The preview length. -/
  preview : Value

/-- The value that overrides give a setting, if they give it one. -/
def override? (overrides : Fields) (key : String) : Option Value :=
  (overrides.get? (Units.ofString key)).filter Value.isDefined

/-- The value that a setting takes, by what an override gives it, a variable that is read, and its
default. -/
inductive Takes (given : Option Value) (setting : Option String) (read : List Char → Value)
    (default : Value) : Value → Prop
  /-- An override comes first. -/
  | override {value : Value} (hgiven : given = some value) : Takes given setting read default value
  /-- Without an override it is what the variable says that counts. -/
  | environment {text : List Char} (hnone : given = none) (hsaid : Says setting (some text)) :
      Takes given setting read default (read text)
  /-- Without an override and without a variable the setting has its default. -/
  | default (hnone : given = none) (hsaid : Says setting none) :
      Takes given setting read default default

/-- **A setting takes one value.** -/
theorem takes_iff {given : Option Value} {setting : Option String} {read : List Char → Value}
    {default value : Value} :
    Takes given setting read default value ↔
      value = given.getD (((trimmed? setting).map read).getD default) := by
  constructor
  · rintro (hgiven | ⟨hnone, hsaid⟩ | ⟨hnone, hsaid⟩)
    · rw [hgiven, Option.getD_some]
    · rw [hnone, says_iff.1 hsaid]
      rfl
    · rw [hnone, says_iff.1 hsaid]
      rfl
  · rintro rfl
    rcases given with - | found
    · rcases htext : trimmed? setting with - | text
      · exact .default rfl (says_iff.2 htext)
      · exact .environment rfl (says_iff.2 htext)
    · exact .override rfl

namespace Values

/-- The values that fields hold. -/
def ofFields (fields : Fields) : Values where
  limit := fields.get (Units.ofString limitKey)
  policy := fields.get (Units.ofString policyKey)
  preview := fields.get (Units.ofString previewKey)

/-- Are these the values that the settings take? The environment says nothing about previews. -/
structure Merged (overrides : Fields) (env : Environment) (values : Values) : Prop where
  /-- The limit is a number, which the text of its variable spells. -/
  limit : Takes (override? overrides limitKey) env.maxPendingBytes
    (fun text ↦ .number (.ofNumeral text)) (.ofNat 65536) values.limit
  /-- The policy is a text. -/
  policy : Takes (override? overrides policyKey) env.stallPolicy
    (fun text ↦ .text (Units.ofChars text)) (.ofString "discard") values.policy
  /-- The preview length has no variable. -/
  preview : values.preview = (override? overrides previewKey).getD (.ofNat 30)

/-- The values that settings take: an override, or what the environment says, or the default. -/
def merged (overrides : Fields) (env : Environment) : Values where
  limit := (override? overrides limitKey).getD
    (((trimmed? env.maxPendingBytes).map fun text ↦ Value.number (.ofNumeral text)).getD
      (.ofNat 65536))
  policy := (override? overrides policyKey).getD
    (((trimmed? env.stallPolicy).map fun text ↦ Value.text (Units.ofChars text)).getD
      (.ofString "discard"))
  preview := (override? overrides previewKey).getD (.ofNat 30)

/-- **The settings take these values and no others.** -/
theorem merged_iff {overrides : Fields} {env : Environment} {values : Values} :
    values.Merged overrides env ↔ values = merged overrides env := by
  constructor
  · rintro ⟨hlimit, hpolicy, hpreview⟩
    obtain ⟨limit, policy, preview⟩ := values
    rw [merged, ← takes_iff.1 hlimit, ← takes_iff.1 hpolicy, ← hpreview]
  · rintro rfl
    exact ⟨takes_iff.2 rfl, takes_iff.2 rfl, rfl⟩

/-- Do values spell a configuration? -/
structure Spell (values : Values) (config : Config) : Prop where
  /-- The limit is written as the number that it is. -/
  limit : values.limit = .ofNat config.maxPendingBytes
  /-- The policy is written by its name. -/
  policy : values.policy = .ofString config.stallPolicy.name
  /-- The preview length is written as the number that it is. -/
  preview : values.preview = .ofNat config.bodyPreviewChars

/-- Is a limit a whole number above zero? -/
def LimitWillDo (values : Values) : Prop :=
  ∃ n : Nat, 0 < n ∧ values.limit = .ofNat n

/-- Is a policy one of the two names? -/
def PolicyWillDo (values : Values) : Prop :=
  values.policy = .ofString "discard" ∨ values.policy = .ofString "throw"

/-- Is a preview length a whole number that is not below zero? -/
def PreviewWillDo (values : Values) : Prop :=
  ∃ n : Nat, values.preview = .ofNat n

theorem problems_limit_eq_nil_iff (values : Values) :
    limitRule.problems values.limit = [] ↔ values.LimitWillDo := by
  rw [accepts_limit.problems_eq_nil_iff]
  exact ⟨fun ⟨n, h⟩ ↦ ⟨n.1, n.2, h⟩, fun ⟨n, hpos, h⟩ ↦ ⟨⟨n, hpos⟩, h⟩⟩

theorem problems_policy_eq_nil_iff (values : Values) :
    StallPolicy.rule.problems values.policy = [] ↔ values.PolicyWillDo := by
  rw [Rule.accepts_policy.problems_eq_nil_iff]
  constructor
  · rintro ⟨policy, h⟩
    cases policy with
    | discard => exact .inl h
    | throw => exact .inr h
  · rintro (h | h)
    · exact ⟨.discard, h⟩
    · exact ⟨.throw, h⟩

theorem problems_preview_eq_nil_iff (values : Values) :
    previewRule.problems values.preview = [] ↔ values.PreviewWillDo := by
  rw [accepts_preview.problems_eq_nil_iff]
  exact ⟨fun ⟨n, h⟩ ↦ ⟨n.1, h⟩, fun ⟨n, h⟩ ↦ ⟨⟨n, Nat.zero_le n⟩, h⟩⟩

/-- Values will do just if they spell a configuration. -/
theorem exists_spell_iff (values : Values) :
    (∃ config, values.Spell config) ↔
      values.LimitWillDo ∧ values.PolicyWillDo ∧ values.PreviewWillDo := by
  constructor
  · rintro ⟨config, hlimit, hpolicy, hpreview⟩
    refine ⟨⟨_, config.maxPendingBytes_pos, hlimit⟩, ?_, ⟨_, hpreview⟩⟩
    rcases hname : config.stallPolicy with - | -
    · exact .inl (by rw [hpolicy, hname]; rfl)
    · exact .inr (by rw [hpolicy, hname]; rfl)
  · rintro ⟨⟨limit, hpos, hlimit⟩, hpolicy, ⟨preview, hpreview⟩⟩
    rcases hpolicy with hpolicy | hpolicy
    · exact ⟨⟨limit, .discard, preview, hpos⟩, hlimit, hpolicy, hpreview⟩
    · exact ⟨⟨limit, .throw, preview, hpos⟩, hlimit, hpolicy, hpreview⟩

end Values

/-! ### Checking -/

/-- Problems with a setting, each told behind its key. -/
def texts (key : String) (problems : List Problem) : List String :=
  problems.map fun problem ↦ key ++ ": " ++ problem.message

/-- The issues of a setting are told behind its key. -/
theorem map_text_issues {α : Type} (key : String) (rule : Rule α) (value : Value) :
    (Rule.issues key (rule.check value)).map Issue.text = texts key (rule.problems value) := by
  rw [Rule.problems]
  rcases rule.check value with problems | a
  · rw [Rule.issues, List.map_map]
    rfl
  · rfl

/-- **Fields hold a configuration just if their values spell it.** -/
theorem ofFields_eq_ok_iff (fields : Fields) (config : Config) :
    ofFields fields = .ok config ↔ (Values.ofFields fields).Spell config := by
  constructor
  · intro h
    rw [ofFields] at h
    split at h
    · next limit policy preview hlimit hpolicy hpreview =>
      obtain rfl := Except.ok.inj h
      exact ⟨(accepts_limit.ok_iff _ _).1 hlimit, (Rule.accepts_policy.ok_iff _ _).1 hpolicy,
        (accepts_preview.ok_iff _ _).1 hpreview⟩
    · cases h
  · rintro ⟨hlimit, hpolicy, hpreview⟩
    have hlimit' := (accepts_limit.ok_iff _ ⟨_, config.maxPendingBytes_pos⟩).2 hlimit
    have hpolicy' := (Rule.accepts_policy.ok_iff _ _).2 hpolicy
    have hpreview' := (accepts_preview.ok_iff _ ⟨_, Nat.zero_le _⟩).2 hpreview
    rw [Values.ofFields] at hlimit' hpolicy' hpreview'
    rw [ofFields, hlimit', hpolicy', hpreview']

/-- **Where the values spell no configuration all that is wrong with them is told**, setting by
setting. -/
theorem map_text_of_ofFields_eq_error {fields : Fields} {issues : List Issue}
    (h : ofFields fields = .error issues) :
    issues.map Issue.text =
      texts limitKey (limitRule.problems (Values.ofFields fields).limit) ++
        texts policyKey (StallPolicy.rule.problems (Values.ofFields fields).policy) ++
        texts previewKey (previewRule.problems (Values.ofFields fields).preview) := by
  rw [ofFields] at h
  split at h
  · cases h
  · obtain rfl := Except.error.inj h
    rw [List.map_append, List.map_append, map_text_issues, map_text_issues, map_text_issues]
    rfl

/-! ### The places that values come from -/

theorem nodup_keys_ofEnvironment (env : Environment) : (ofEnvironment env).keys.Nodup := by
  rw [ofEnvironment]
  rcases trimmed? env.maxPendingBytes with - | limit <;>
    rcases trimmed? env.stallPolicy with - | policy <;>
    simp [Fields.keys, show Units.ofString limitKey ≠ Units.ofString policyKey by decide]

/-- An environment says what its variables do, and nothing about previews. -/
theorem get?_ofEnvironment (env : Environment) :
    (ofEnvironment env).get? (Units.ofString limitKey) =
        (trimmed? env.maxPendingBytes).map (fun text ↦ .number (.ofNumeral text)) ∧
      (ofEnvironment env).get? (Units.ofString policyKey) =
        (trimmed? env.stallPolicy).map (fun text ↦ .text (Units.ofChars text)) ∧
      (ofEnvironment env).get? (Units.ofString previewKey) = none := by
  rw [ofEnvironment]
  rcases trimmed? env.maxPendingBytes with - | limit
  · rcases trimmed? env.stallPolicy with - | policy
    · exact ⟨rfl, rfl, rfl⟩
    · exact ⟨rfl, rfl, rfl⟩
  · rcases trimmed? env.stallPolicy with - | policy
    · exact ⟨rfl, rfl, rfl⟩
    · exact ⟨rfl, rfl, rfl⟩

/-- A setting takes what an override gives it, or what the environment says, or the default. -/
theorem get?_layered {overrides : Fields} (hkeys : overrides.keys.Nodup) (env : Environment)
    (key : String) :
    (layered overrides env).get? (Units.ofString key) =
      (override? overrides key).or
        (((ofEnvironment env).get? (Units.ofString key)).or
          (default.toFields.get? (Units.ofString key))) := by
  rw [layered, Fields.get?_merge (Fields.nodup_keys_filter hkeys _),
    Fields.get?_merge (nodup_keys_ofEnvironment env), Fields.get?_filter hkeys, override?]

/-- **The values of all places together**, setting by setting. -/
theorem ofFields_layered {overrides : Fields} (hkeys : overrides.keys.Nodup) (env : Environment) :
    Values.ofFields (layered overrides env) = .merged overrides env := by
  obtain ⟨hlimit, hpolicy, hpreview⟩ := get?_ofEnvironment env
  rw [Values.ofFields, Values.merged, Fields.get, Fields.get, Fields.get, get?_layered hkeys,
    get?_layered hkeys, get?_layered hkeys, hlimit, hpolicy, hpreview]
  simp only [Option.getD_or, Option.none_or]
  rfl

/-! ### Resolving -/

/-- All that is wrong with values, setting by setting. -/
def Values.complaints (values : Values) : List String :=
  texts limitKey (limitRule.problems values.limit) ++
    texts policyKey (StallPolicy.rule.problems values.policy) ++
    texts previewKey (previewRule.problems values.preview)

/-- Only values that will do leave nothing to complain of. -/
theorem Values.complaints_ne_nil {values : Values} (h : ∀ config, ¬values.Spell config) :
    values.complaints ≠ [] := by
  intro hnone
  rw [complaints, List.append_eq_nil_iff, List.append_eq_nil_iff, texts, texts, texts,
    List.map_eq_nil_iff, List.map_eq_nil_iff, List.map_eq_nil_iff, problems_limit_eq_nil_iff,
    problems_policy_eq_nil_iff, problems_preview_eq_nil_iff] at hnone
  obtain ⟨config, hspell⟩ := values.exists_spell_iff.2 ⟨hnone.1.1, hnone.1.2, hnone.2⟩
  exact h config hspell

section Resolve

variable {overrides : Fields} (hkeys : overrides.keys.Nodup) (env : Environment)

include hkeys

/-- A configuration is resolved just if the values of the settings spell it. -/
theorem resolve_eq_ok_iff (config : Config) :
    resolve overrides env = .ok config ↔ (Values.merged overrides env).Spell config := by
  rw [← ofFields_layered hkeys, ← ofFields_eq_ok_iff, resolve]
  split
  · next found hfound => rw [hfound, Except.ok.injEq, Except.ok.injEq]
  · next issues hissues =>
    rw [hissues]
    exact iff_of_false (fun heq ↦ nomatch heq) fun heq ↦ nomatch heq

/-- Where the values of the settings spell no configuration, all that is wrong with them is told. -/
theorem resolve_eq_error (h : ∀ config, ¬(Values.merged overrides env).Spell config) :
    resolve overrides env = .error (.invalidConfig (Values.merged overrides env).complaints) := by
  rw [← ofFields_layered hkeys] at h ⊢
  rw [resolve]
  split
  · next found hfound => exact absurd ((ofFields_eq_ok_iff _ found).1 hfound) (h found)
  · next issues hissues => rw [map_text_of_ofFields_eq_error hissues, Values.complaints]

/-- **Resolving depends on the values of the settings alone.** -/
theorem resolve_congr {others : Fields} (hothers : others.keys.Nodup) {other : Environment}
    (hvalues : Values.merged others other = .merged overrides env) :
    resolve others other = resolve overrides env := by
  by_cases h : ∃ config, (Values.merged overrides env).Spell config
  · obtain ⟨config, hspell⟩ := h
    rw [(resolve_eq_ok_iff hkeys env config).2 hspell]
    rw [← hvalues] at hspell
    exact (resolve_eq_ok_iff hothers other config).2 hspell
  · have hnone := not_exists.1 h
    rw [resolve_eq_error hkeys env hnone]
    rw [← hvalues] at hnone ⊢
    exact resolve_eq_error hothers other hnone

end Resolve

/-- **A configuration is resolved setting by setting.** There is one value that each setting takes.
The configuration is the one that these values spell, and there is one just if all three will do.
Otherwise the error says all that is wrong with each setting whose value will not do, in the order
of the settings, and nothing about the others. What else overrides say makes no difference, nor does
a variable that is overridden; and a configuration that was resolved is resolved as it is, whatever
the environment says. -/
theorem resolve_by_setting (overrides : Fields) (hkeys : overrides.keys.Nodup) (env : Environment) :
    ∃ values : Values, (∀ other : Values, other.Merged overrides env ↔ other = values) ∧
      (∀ config, resolve overrides env = .ok config ↔ values.Spell config) ∧
      ((∃ config, resolve overrides env = .ok config) ↔
        values.LimitWillDo ∧ values.PolicyWillDo ∧ values.PreviewWillDo) ∧
      ((∀ config, resolve overrides env ≠ .ok config) →
        resolve overrides env = .error (.invalidConfig values.complaints) ∧
          values.complaints ≠ []) ∧
      (limitRule.problems values.limit = [] ↔ values.LimitWillDo) ∧
      (StallPolicy.rule.problems values.policy = [] ↔ values.PolicyWillDo) ∧
      (previewRule.problems values.preview = [] ↔ values.PreviewWillDo) ∧
      (∀ others : Fields, others.keys.Nodup →
        (∀ key ∈ [limitKey, policyKey, previewKey],
          override? others key = override? overrides key) →
        resolve others env = resolve overrides env) ∧
      (override? overrides limitKey ≠ none → ∀ setting,
        resolve overrides { env with maxPendingBytes := setting } = resolve overrides env) ∧
      (override? overrides policyKey ≠ none → ∀ setting,
        resolve overrides { env with stallPolicy := setting } = resolve overrides env) ∧
      ∀ config other, resolve config.toFields other = .ok config := by
  let values := Values.merged overrides env
  have hok := resolve_eq_ok_iff hkeys env
  refine ⟨values, fun other ↦ Values.merged_iff, hok, ?_, fun hnone ↦ ?_,
    values.problems_limit_eq_nil_iff, values.problems_policy_eq_nil_iff,
    values.problems_preview_eq_nil_iff,
    fun others hothers hsame ↦ ?_, fun hover setting ↦ ?_, fun hover setting ↦ ?_,
    fun config other ↦ ?_⟩
  · rw [← values.exists_spell_iff]
    exact exists_congr hok
  · have hnone' (config : Config) : ¬values.Spell config := mt (hok config).2 (hnone config)
    exact ⟨resolve_eq_error hkeys env hnone', Values.complaints_ne_nil hnone'⟩
  · refine resolve_congr hkeys env hothers ?_
    simp only [List.forall_mem_cons] at hsame
    rw [Values.merged, Values.merged, hsame.1, hsame.2.1, hsame.2.2.1]
  · refine resolve_congr hkeys env hkeys ?_
    obtain ⟨value, hvalue⟩ := Option.ne_none_iff_exists'.1 hover
    rw [Values.merged, Values.merged, hvalue]
    rfl
  · refine resolve_congr hkeys env hkeys ?_
    obtain ⟨value, hvalue⟩ := Option.ne_none_iff_exists'.1 hover
    rw [Values.merged, Values.merged, hvalue]
    rfl
  · have hnodup : config.toFields.keys.Nodup :=
      show [Units.ofString limitKey, Units.ofString policyKey, Units.ofString previewKey].Nodup by
        decide
    exact (resolve_eq_ok_iff hnodup other config).2 ⟨rfl, rfl, rfl⟩

/-- An override that makes no sense in two ways and one that is none, beside a limit that overrides
a variable without a number and a policy that only the environment gives; and two settings that come
from the environment. -/
theorem resolve_by_setting_masked :
    let overrides := Fields.ofPairs
      [(Units.ofString "stallPolicy", .undefined),
        (Units.ofString "bodyPreviewChars", .number (.finite (-3 / 2))),
        (Units.ofString "maxPendingBytes", .ofNat 16), (Units.ofString "verbose", .null)]
    let env : Environment := { maxPendingBytes := some "lots", stallPolicy := some " throw\n" }
    let values : Values := ⟨.ofNat 16, .ofString "throw", .number (.finite (-3 / 2))⟩
    let others : Environment :=
      { maxPendingBytes := some "\t4096 ", stallPolicy := some " throw\n" }
    overrides.keys.Nodup ∧ values.Merged overrides env ∧
      values.LimitWillDo ∧ values.PolicyWillDo ∧ ¬values.PreviewWillDo ∧
      resolve overrides env =
        .error (.invalidConfig
          ["bodyPreviewChars: Expected integer, received float",
            "bodyPreviewChars: Number must be greater than or equal to 0"]) ∧
      override? overrides limitKey ≠ none ∧
      resolve overrides { env with maxPendingBytes := some "-0" } = resolve overrides env ∧
      (⟨.ofNat 4096, .ofString "throw", .ofNat 30⟩ : Values).Merged [] others ∧
      resolve [] others = .ok ⟨4096, .throw, 30, by decide⟩ := by
  intro overrides env values others
  have hkeys : overrides.keys.Nodup := Fields.nodup_keys_ofPairs _
  have hthrow : Says (some " throw\n") (some "throw".toList) := says_iff.2 (by decide +kernel)
  have hnumber : Says (some "\t4096 ") (some "4096".toList) := says_iff.2 (by decide +kernel)
  have hread : Number.ofNumeral "4096".toList = .ofNat 4096 := by decide +kernel
  have hover : override? overrides limitKey ≠ none := by decide +kernel
  -- The limit and the preview length are overridden, and only the policy comes from its variable.
  have hvalues : values.Merged overrides env :=
    ⟨.override rfl, .environment rfl hthrow, rfl⟩
  have hothers : (⟨.number (.ofNumeral "4096".toList), .ofString "throw", .ofNat 30⟩ :
      Values).Merged [] others :=
    ⟨.environment rfl hnumber, .environment rfl hthrow, rfl⟩
  rw [hread] at hothers
  obtain ⟨found, honly, -, hreturns, herror, hlimit, hpolicy, hpreview, -, hmasked, -⟩ :=
    resolve_by_setting overrides hkeys env
  obtain rfl := (honly values).1 hvalues
  obtain ⟨found', honly', hok', -⟩ := resolve_by_setting [] List.nodup_nil others
  obtain rfl := (honly' _).1 hothers
  have hwrong : ¬values.PreviewWillDo := mt hpreview.2 (by decide +kernel)
  have hnone (config : Config) : resolve overrides env ≠ .ok config :=
    fun hok ↦ hwrong (hreturns.1 ⟨config, hok⟩).2.2
  have hcomplaints : values.complaints =
      ["bodyPreviewChars: Expected integer, received float",
        "bodyPreviewChars: Number must be greater than or equal to 0"] := by decide +kernel
  exact ⟨hkeys, hvalues, hlimit.1 (by decide +kernel), hpolicy.1 (by decide +kernel), hwrong,
    hcomplaints ▸ (herror hnone).1, hover, hmasked hover (some "-0"), hothers,
    (hok' _).2 ⟨rfl, rfl, rfl⟩⟩

end Config

end Rcon
