import Rcon.Log.Journal

/-!
# Thresholds, sinks and directories

What the environment says of a line, apart from how the settings hold it: the least level that is
written (`IsThreshold`) and the sink of a level (`Sink.of`). **A line is written to its sink** and
to no other (`Journal.write_eq`), behind the directory that the sink needs.

`Effect.InOrder` is what a list of effects owes the directories: each is made once, and before a
line goes into it. It is told along the list, so that effects in order may be put behind one another
(`Effect.InOrder.append`).
-/

namespace Rcon.Log

/-! ### The threshold -/

/-- Does a text name a level, in any case? The ASCII capitals are enough, as they are for
`Level.ofName?`. -/
def Level.IsNamedBy (level : Level) (text : String) : Prop :=
  text.toList.map Char.toUpper = level.name.toList

/-- Is this the least level that is written? -/
inductive IsThreshold (env : Environment) : Level → Prop
  /-- The level that is named. -/
  | named {text : String} {level : Level} (henv : env.logLevel = some text)
      (h : level.IsNamedBy text) : IsThreshold env level
  /-- Where none is, the level `info`. -/
  | unnamed (h : ∀ text, env.logLevel = some text → ∀ level : Level, ¬level.IsNamedBy text) :
      IsThreshold env .info

/-- A level is found by its name. -/
theorem Level.ofName?_eq_some_iff {text : String} {level : Level} :
    ofName? text = some level ↔ level.IsNamedBy text := by
  constructor
  · intro h
    rw [ofName?] at h
    have hfound := List.find?_some h
    rwa [decide_eq_true_eq] at hfound
  · intro h
    rw [ofName?, show text.toList.map Char.toUpper = level.name.toList from h]
    cases level <;> decide

theorem Level.ofName?_eq_none_iff {text : String} :
    ofName? text = none ↔ ∀ level : Level, ¬level.IsNamedBy text := by
  rw [Option.eq_none_iff_forall_ne_some]
  exact forall_congr' fun level ↦ not_congr ofName?_eq_some_iff

/-- **The settings hold the threshold.** -/
theorem isThreshold_iff {env : Environment} {level : Level} :
    IsThreshold env level ↔ level = (Settings.ofEnvironment env).threshold := by
  show _ ↔ level = (env.logLevel.bind Level.ofName?).getD .info
  have hnamed (l : Level) : env.logLevel.bind Level.ofName? = some l ↔
      ∃ text, env.logLevel = some text ∧ l.IsNamedBy text := by
    simp only [Option.bind_eq_some_iff, Level.ofName?_eq_some_iff]
  have hunnamed : env.logLevel.bind Level.ofName? = none ↔
      ∀ text, env.logLevel = some text → ∀ l : Level, ¬l.IsNamedBy text := by
    simp only [Option.bind_eq_none_iff, Level.ofName?_eq_none_iff]
  constructor
  · rintro (⟨henv, h⟩ | h)
    · rw [(hnamed level).2 ⟨_, henv, h⟩, Option.getD_some]
    · rw [hunnamed.2 h, Option.getD_none]
  · rintro rfl
    cases hfound : env.logLevel.bind Level.ofName? with
    | none => exact .unnamed (hunnamed.1 hfound)
    | some l =>
      obtain ⟨text, henv, h⟩ := (hnamed l).1 hfound
      exact .named henv h

/-! ### Sinks -/

/-- Where a line goes. -/
inductive Sink
  /-- To the end of a file. -/
  | file (path : String)
  /-- To the standard error. -/
  | standardError
  /-- To the standard output. -/
  | standardOutput
  deriving DecidableEq

namespace Sink

/-- The stream of the console that a level goes to. -/
def console (level : Level) : Sink :=
  if level = .warn ∨ level = .error then .standardError else .standardOutput

/-- The sink of a level: the file if one is named, and else the console. -/
def of (env : Environment) (level : Level) : Sink :=
  match env.logFile with
  | none | some "" => console level
  | some path => .file path

/-- The event of a line. -/
def event (line : Units) : Sink → Effect
  | .file path => .append path (line ++ [0x0A])
  | .standardError => .standardError line
  | .standardOutput => .standardOutput line

/-- The directories that a sink needs and that have not been made. -/
def missing (made : List String) : Sink → List String
  | .file path => [parentDirectory path].filter (· ∉ made)
  | .standardError | .standardOutput => []

variable {env : Environment} {level : Level}

theorem missing_console (made : List String) (level : Level) :
    (console level).missing made = [] := by
  rw [console]
  split <;> rfl

/-- The settings name the sink that the environment does. -/
theorem of_cases (env : Environment) (level : Level) :
    (of env level = console level ∧ (Settings.ofEnvironment env).destination = .console) ∨
      ∃ path, of env level = .file path ∧
        (Settings.ofEnvironment env).destination = .file path := by
  cases henv : env.logFile with
  | none => exact .inl (by simp [of, Settings.ofEnvironment, henv])
  | some path =>
    by_cases hempty : path = ""
    · exact .inl (by simp [of, Settings.ofEnvironment, henv, hempty])
    · exact .inr ⟨path, by simp [of, Settings.ofEnvironment, henv, hempty]⟩

end Sink

/-- **A line is written to its sink**, behind the directory that it needs. -/
theorem Journal.write_eq (journal : Journal) (env : Environment) (level : Level) (line : Units) :
    journal.write (Settings.ofEnvironment env).destination level line =
      (((Sink.of env level).missing journal.prepared).map .makeDirectory ++
          [(Sink.of env level).event line],
        { journal with
          prepared := (Sink.of env level).missing journal.prepared ++ journal.prepared }) := by
  obtain ⟨hsink, hdestination⟩ | ⟨path, hsink, hdestination⟩ := Sink.of_cases env level
  · rw [hsink, hdestination, Sink.missing_console]
    cases level <;> rfl
  · rw [hsink, hdestination]
    by_cases hmade : parentDirectory path ∈ journal.prepared
    · simp [Journal.write, Sink.missing, Sink.event, hmade]
    · simp [Journal.write, Sink.missing, Sink.event, hmade]

/-! ### Directories -/

/-- The directory that an effect makes. -/
def Effect.directory? : Effect → Option String
  | .makeDirectory path => some path
  | .standardOutput _ | .standardError _ | .append .. => none

/-- The directories that effects make, in order. -/
def directories (effects : List Effect) : List String :=
  effects.filterMap Effect.directory?

/-- Is every directory made once, and before anything is written into it, when these are there? -/
def Effect.InOrder (made : List String) : List Effect → Prop
  | [] => True
  | .makeDirectory path :: rest => path ∉ made ∧ InOrder (path :: made) rest
  | .append path _ :: rest => parentDirectory path ∈ made ∧ InOrder made rest
  | .standardOutput _ :: rest | .standardError _ :: rest => InOrder made rest

namespace Effect

variable {made : List String} {effects front back : List Effect}

/-- What is in order goes on in order with the directories that it has made. -/
theorem InOrder.append (hfront : InOrder made front)
    (hback : InOrder ((directories front).reverse ++ made) back) :
    InOrder made (front ++ back) := by
  induction front generalizing made with
  | nil => exact hback
  | cons effect rest ih =>
    cases effect with
    | standardOutput _ => exact ih hfront hback
    | standardError _ => exact ih hfront hback
    | append path text => exact ⟨hfront.1, ih hfront.2 hback⟩
    | makeDirectory path =>
      refine ⟨hfront.1, ih hfront.2 ?_⟩
      have hcons : directories (.makeDirectory path :: rest) = path :: directories rest := rfl
      rwa [hcons, List.reverse_cons, List.append_assoc] at hback

/-- In order no directory is made twice, and none that is there already. -/
theorem InOrder.nodup (h : InOrder made effects) :
    (directories effects).Nodup ∧ ∀ path ∈ directories effects, path ∉ made := by
  induction effects generalizing made with
  | nil => exact ⟨List.nodup_nil, fun _ hmem ↦ absurd hmem List.not_mem_nil⟩
  | cons effect rest ih =>
    cases effect with
    | standardOutput _ => exact ih h
    | standardError _ => exact ih h
    | append path text => exact ih h.2
    | makeDirectory path =>
      obtain ⟨hnodup, hnew⟩ := ih h.2
      have hcons : directories (.makeDirectory path :: rest) = path :: directories rest := rfl
      rw [hcons]
      refine ⟨List.nodup_cons.2 ⟨fun hmem ↦ hnew path hmem List.mem_cons_self, hnodup⟩,
        List.forall_mem_cons.2 ⟨h.1, fun other hother hmade ↦ ?_⟩⟩
      exact hnew other hother (List.mem_cons_of_mem _ hmade)

/-- In order a directory is there before anything is written into it. -/
theorem InOrder.mem_of_append {path : String} {text : Units} (h : InOrder made effects)
    (heffects : effects = front ++ .append path text :: back) :
    parentDirectory path ∈ made ∨ .makeDirectory (parentDirectory path) ∈ front := by
  subst heffects
  induction front generalizing made with
  | nil => exact .inl h.1
  | cons effect rest ih =>
    cases effect with
    | standardOutput _ => exact (ih h).imp_right (List.mem_cons_of_mem _)
    | standardError _ => exact (ih h).imp_right (List.mem_cons_of_mem _)
    | append path text => exact (ih h.2).imp_right (List.mem_cons_of_mem _)
    | makeDirectory directory =>
      obtain hmem | hrest := ih h.2
      · obtain rfl | hmade := List.mem_cons.1 hmem
        · exact .inr List.mem_cons_self
        · exact .inl hmade
      · exact .inr (List.mem_cons_of_mem _ hrest)

end Effect

theorem directories_append (front back : List Effect) :
    directories (front ++ back) = directories front ++ directories back :=
  List.filterMap_append

namespace Sink

theorem missing_congr (sink : Sink) {made made' : List String}
    (h : ∀ path, path ∈ made ↔ path ∈ made') : sink.missing made = sink.missing made' := by
  cases sink with
  | file path =>
    rw [missing, missing]
    exact List.filter_congr fun path _ ↦ by rw [decide_not, decide_not, decide_eq_decide.2 (h path)]
  | standardError => rfl
  | standardOutput => rfl

/-- The event of a line is in order behind the directory that it needs. -/
theorem inOrder_event (sink : Sink) (made : List String) (line : Units) :
    let effects := (sink.missing made).map .makeDirectory ++ [sink.event line]
    Effect.InOrder made effects ∧
      sink.missing made ++ made = (directories effects).reverse ++ made := by
  cases sink with
  | file path =>
    by_cases hmade : parentDirectory path ∈ made
    · simp [missing, event, Effect.InOrder, directories, Effect.directory?, hmade]
    · simp [missing, event, Effect.InOrder, directories, Effect.directory?, hmade]
  | standardError => exact ⟨trivial, rfl⟩
  | standardOutput => exact ⟨trivial, rfl⟩

end Sink

end Rcon.Log
