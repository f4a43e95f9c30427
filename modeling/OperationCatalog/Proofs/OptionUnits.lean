import OperationCatalog.Proofs.SettingSources
import OperationCatalog.Proofs.NamedEntries

/-!
# Command lines made of options

A command line that is made of options with their values, each setting at most once, and the environment
behind it offer one row of texts for the settings.  The first text for a setting is that of the command
line, if it gives the setting, so what the environment has for it is never looked at; the order of the
options and the way in which their values are written make no difference to what is offered first.

## Key results

- `CommandLine.read_unit`: what one option does, whichever way it is written
- `CommandLine.read_commandLine`: what a row of options does
- `Arguments.read_commandLine`: the offers that options and the environment make
- `settings_of_option_units`: the settings that options and the environment give
-/

namespace OperationCatalog

/-! ## Options with their values -/

/-- A part of a command line that gives one setting. -/
inductive OptionUnit where
  /-- `--name value`, or `--name=value` if it is `joined`.  The value does not begin with a dash. -/
  | valued (setting : Setting) (value : String) (joined : Bool) (takesValue : setting ≠ .jsonLogs)
    (plain : value.toList.head? ≠ some '-')
  /-- `--json-logs`. -/
  | switch

namespace OptionUnit

/-- The setting that is given, and the text for it. -/
def given : OptionUnit → Setting × String
  | .valued setting value _ _ _ => (setting, value)
  | .switch => (.jsonLogs, "true")

/-- The arguments that a part consists of. -/
def arguments : OptionUnit → List String
  | .valued setting value joined _ _ =>
    if joined then ["--" ++ setting.option ++ "=" ++ value] else ["--" ++ setting.option, value]
  | .switch => ["--json-logs"]

end OptionUnit

/-- The command line that is made of some parts. -/
def commandLine (units : List OptionUnit) : List String := units.flatMap OptionUnit.arguments

/-- Whether each setting is given at most once. -/
def EachOnce (units : List OptionUnit) : Prop := ((units.map OptionUnit.given).map Prod.fst).Nodup

instance (units : List OptionUnit) : Decidable (EachOnce units) :=
  inferInstanceAs (Decidable (List.Nodup _))

/-- The text for a setting: that of the command line if it gives the setting, else that of the
    environment, if it has one. -/
def sourceText (units : List OptionUnit) (environment : List (String × String)) (x : Setting) :
    Option String :=
  ((units.map OptionUnit.given).lookup x).or (environment.lookup x.environmentName)

/-! ## Sorts of arguments -/

namespace Argument

/-- An argument that begins with two dashes is an option, if they are not all of it. -/
theorem ofText_of_dashes {text : String} {cs : List Char} (h : text.toList = '-' :: '-' :: cs)
    (hne : cs ≠ []) :
    ofText text = .option (String.ofList (cs.takeWhile (· ≠ '=')))
      (match cs.dropWhile (· ≠ '=') with
        | [] => none
        | _ :: rest => some (String.ofList rest)) := by
  obtain ⟨c, rest, rfl⟩ := List.exists_cons_of_ne_nil hne
  rw [ofText.eq_def, h]
  rfl

theorem ofText_option (x : Setting) : ofText ("--" ++ x.option) = .option x.option none := by
  cases x <;> decide

/-- The name ends at the first equals sign. -/
theorem ofText_joined (x : Setting) (value : String) :
    ofText ("--" ++ x.option ++ "=" ++ value) = .option x.option (some value) := by
  have htext : ("--" ++ x.option ++ "=" ++ value).toList =
      '-' :: '-' :: (x.option.toList ++ '=' :: value.toList) := by
    simp
  have hall : x.option.toList.all (· ≠ '=') = true := by
    cases x <;> decide
  have hname := List.all_eq_true.1 hall
  rw [ofText_of_dashes htext (by simp), List.takeWhile_append_of_pos hname,
    List.dropWhile_append_of_pos hname, List.takeWhile_cons_of_neg (by decide),
    List.dropWhile_cons_of_neg (by decide), List.append_nil, String.ofList_toList]
  simp only [String.ofList_toList]

/-- An argument that does not begin with a dash is a value. -/
theorem ofText_value {text : String} (h : text.toList.head? ≠ some '-') : ofText text = .value text := by
  rw [ofText.eq_def]
  split
  · rename_i heq
    exact absurd (by rw [heq]; rfl) h
  · rename_i heq
    exact absurd (by rw [heq]; rfl) h
  · rename_i heq
    exact absurd (by rw [heq]; rfl) h
  · rfl

end Argument

/-! ## Reading options -/

namespace CommandLine

/-- An argument that does not end the options is taken, and then the rest is read. -/
theorem read_cons {arg : String} (h : Argument.ofText arg ≠ .endOfOptions) (line : CommandLine)
    (rest : List String) :
    line.read (arg :: rest) = (line.take (Argument.ofText arg)).bind (·.read rest) := by
  rw [read, if_neg h]
  cases line.take (Argument.ofText arg) <;> rfl

theorem find?_option (x : Setting) : Setting.all.find? (·.option = x.option) = some x := by
  cases x <;> decide

theorem option_not_reserved (x : Setting) : ¬ (x.option = "help" ∨ x.option = "version") := by
  cases x <;> decide

/-- An option that brings its value ends the one before, and its value is given at once. -/
theorem takeOption_joined (line : CommandLine) {x : Setting} (h : x ≠ .jsonLogs) (text : String) :
    line.takeOption x.option (some text) =
      line.settle.bind fun c => (c.give x text).map fun c => ⟨c, none⟩ := by
  rw [takeOption.eq_def, if_neg (option_not_reserved x)]
  simp only [find?_option]
  cases x with
  | jsonLogs => exact absurd rfl h
  | _ => rfl

/-- One that does not bring its value is kept until its value comes. -/
theorem takeOption_separate (line : CommandLine) {x : Setting} (h : x ≠ .jsonLogs) :
    line.takeOption x.option none = line.settle.map fun c => ⟨c, some ⟨x, none⟩⟩ := by
  rw [takeOption.eq_def, if_neg (option_not_reserved x)]
  simp only [find?_option]
  cases x with
  | jsonLogs => exact absurd rfl h
  | _ => rfl

/-- The switch needs no value. -/
theorem takeOption_switch (line : CommandLine) :
    line.takeOption Setting.jsonLogs.option none =
      line.settle.bind fun c => (c.give .jsonLogs "true").map fun c => ⟨c, none⟩ := by
  rw [takeOption.eq_def, if_neg (option_not_reserved .jsonLogs)]
  simp only [find?_option]
  rfl

variable {rest : List String} {f : Choices → Except ArgumentError Choices}

/-- Both sorts of arguments that are complete by themselves give their text after the option before. -/
theorem read_complete (hrest : ∀ line : CommandLine, line.read rest = line.settle.bind f)
    {line : CommandLine} {arg name text : String} {value : Option String} {x : Setting}
    (hsort : Argument.ofText arg = .option name value)
    (htake : line.takeOption name value =
      line.settle.bind fun c => (c.give x text).map fun c => ⟨c, none⟩) :
    line.read (arg :: rest) = line.settle.bind fun c => (c.give x text).bind f := by
  rw [read_cons (by rw [hsort]; exact nofun), hsort, take, htake]
  cases line.settle with
  | error e => rfl
  | ok c =>
    show ((c.give x text).map fun c => (⟨c, none⟩ : CommandLine)).bind (·.read rest) =
      (c.give x text).bind f
    cases c.give x text with
    | error e => rfl
    | ok c => exact hrest ⟨c, none⟩

/-- If the rest is read by ending the option before and then doing something, then with one more part
    before it the text of this part is given in between. -/
theorem read_unit (hrest : ∀ line : CommandLine, line.read rest = line.settle.bind f)
    (line : CommandLine) (u : OptionUnit) :
    line.read (u.arguments ++ rest) = line.settle.bind fun c => (c.give u.given.1 u.given.2).bind f := by
  cases u with
  | switch =>
    have hsort : Argument.ofText "--json-logs" = .option Setting.jsonLogs.option none :=
      Argument.ofText_option .jsonLogs
    exact read_complete hrest hsort line.takeOption_switch
  | valued x value joined takesValue plain =>
    cases joined with
    | true =>
      exact read_complete hrest (Argument.ofText_joined x value) (line.takeOption_joined takesValue value)
    | false =>
      show line.read (("--" ++ x.option) :: value :: rest) =
        line.settle.bind fun c => (c.give x value).bind f
      have hvalue := Argument.ofText_value plain
      rw [read_cons (by rw [Argument.ofText_option]; exact nofun), Argument.ofText_option, take,
        takeOption_separate line takesValue]
      cases line.settle with
      | error e => rfl
      | ok c =>
        -- the value is kept with its option, and given when that ends
        show read ⟨c, some ⟨x, none⟩⟩ (value :: rest) = (c.give x value).bind f
        rw [read_cons (by rw [hvalue]; exact nofun), hvalue]
        exact hrest ⟨c, some ⟨x, some value⟩⟩

/-- Options are read by giving their texts one after the other, after the option before has been ended. -/
theorem read_commandLine (line : CommandLine) (units : List OptionUnit) :
    line.read (commandLine units) =
      line.settle.bind ((units.map OptionUnit.given).foldlM fun c g => c.give g.1 g.2) := by
  induction units generalizing line with
  | nil =>
    rw [commandLine, List.flatMap_nil, read]
    cases line.settle <;> rfl
  | cons u rest ih => exact read_unit ih line u

end CommandLine

/-! ## What the sources offer -/

namespace Choices

variable {c c' : Choices}

/-- Choosing a value for one setting gives none to the others, and takes none from them. -/
theorem has_of_set {x y : Setting} {text : String} (h : c.set x text = .ok c') (hne : y ≠ x) :
    c'.has y = c.has y := by
  obtain ⟨v, -, rfl⟩ := set_eq_ok_iff.1 h
  rw [has_eq, has_eq, get?_put_of_ne c hne v]

/-- Giving texts for settings that have no value, each at most once, is offering them. -/
theorem foldlM_give_eq {givens : List (Setting × String)} (hnames : (givens.map Prod.fst).Nodup)
    (hfresh : ∀ g ∈ givens, c.has g.1 = false) :
    givens.foldlM (fun c g => c.give g.1 g.2) c =
      (givens.map fun g => (g.1, some g.2)).foldlM (fun c o => c.offer o.1 o.2) c := by
  induction givens generalizing c with
  | nil => rfl
  | cons g rest ih =>
    rw [List.map_cons, List.nodup_cons] at hnames
    have hhas : c.has g.1 = false := hfresh g List.mem_cons_self
    have hgive : c.give g.1 g.2 = c.set g.1 g.2 := by rw [give, hhas]; rfl
    have hoffer : c.offer g.1 (some g.2) = c.set g.1 g.2 := by rw [offer.eq_def, hhas]
    rw [List.foldlM_cons, List.map_cons, List.foldlM_cons, hgive, hoffer]
    cases hset : c.set g.1 g.2 with
    | error e => rfl
    | ok c₁ =>
      -- no later text is for this setting, so the settings of these have no value yet
      refine ih hnames.2 fun later hlater => ?_
      have hne : later.1 ≠ g.1 := fun heq => hnames.1 (heq ▸ List.mem_map_of_mem hlater)
      rw [has_of_set hset hne]
      exact hfresh later (List.mem_cons_of_mem g hlater)

/-- The environment offers what it has for each setting. -/
theorem complete_eq (c : Choices) (environment : List (String × String)) :
    c.complete environment =
      (Setting.all.map fun x => (x, environment.lookup x.environmentName)).foldlM
        (fun c o => c.offer o.1 o.2) c := by
  rw [complete, List.foldlM_map]
  rfl

theorem firstOffered_append (offers offers' : List (Setting × Option String)) (x : Setting) :
    firstOffered (offers ++ offers') x = (firstOffered offers x).or (firstOffered offers' x) :=
  List.findSome?_append

/-- Of texts that are all there, the first one is found by looking the setting up. -/
theorem firstOffered_map_some (givens : List (Setting × String)) (x : Setting) :
    firstOffered (givens.map fun g => (g.1, some g.2)) x = givens.lookup x := by
  induction givens with
  | nil => rfl
  | cons g rest ih =>
    rw [List.map_cons, firstOffered_cons, ih, lookup_cons_eq_ite]
    by_cases hx : g.1 = x
    · rw [if_pos hx, if_pos hx.symm, Option.some_or]
    · rw [if_neg hx, if_neg (Ne.symm hx), Option.none_or]

/-- Where settings are offered what belongs to them, a setting that is among them gets this. -/
theorem firstOffered_map (text? : Setting → Option String) (settings : List Setting) (x : Setting) :
    firstOffered (settings.map fun y => (y, text? y)) x = if x ∈ settings then text? x else none := by
  induction settings with
  | nil => rfl
  | cons y rest ih =>
    rw [List.map_cons, firstOffered_cons, ih]
    by_cases hx : y = x
    · -- what the rest has for the setting is the same text or nothing
      subst hx
      rw [if_pos rfl, if_pos List.mem_cons_self]
      split
      · exact Option.or_self
      · exact Option.or_none
    · simp only [if_neg hx, List.mem_cons, Ne.symm hx, false_or, Option.none_or]

end Choices

/-- The texts that options and the environment offer for settings, one after the other. -/
def offers (units : List OptionUnit) (environment : List (String × String)) :
    List (Setting × Option String) :=
  ((units.map OptionUnit.given).map fun g => (g.1, some g.2)) ++
    Setting.all.map fun x => (x, environment.lookup x.environmentName)

/-- The first text that is offered for a setting is that of the command line, else that of the
    environment. -/
theorem firstOffered_offers (units : List OptionUnit) (environment : List (String × String)) :
    Choices.firstOffered (offers units environment) = sourceText units environment := by
  funext x
  have hall : x ∈ Setting.all := by cases x <;> decide
  rw [offers, Choices.firstOffered_append, Choices.firstOffered_map_some, Choices.firstOffered_map,
    if_pos hall, sourceText]

variable {units : List OptionUnit}

/-- Options and the environment give what is made of their offers. -/
theorem Arguments.read_commandLine (h : EachOnce units) (environment : List (String × String)) :
    read (commandLine units) environment =
      ((offers units environment).foldlM (fun (c : Choices) o => c.offer o.1 o.2) .empty).bind
        ofChoices := by
  have hfresh : ∀ g ∈ units.map OptionUnit.given, Choices.empty.has g.1 = false := by
    intro g _
    rw [Choices.has_eq, Choices.get?_empty]
    rfl
  have hgiven : Choices.ofArguments (commandLine units) =
      ((units.map OptionUnit.given).map fun g => (g.1, some g.2)).foldlM
        (fun (c : Choices) o => c.offer o.1 o.2) .empty := by
    rw [Choices.ofArguments, CommandLine.read_commandLine, ← Choices.foldlM_give_eq h hfresh]
    rfl
  rw [read, hgiven, offers, List.foldlM_append]
  simp only [Choices.complete_eq]
  exact (bind_assoc _ _ _).symm

/-! ## The settings -/

/-- The settings that arguments and the environment give, if they are valid. -/
def Settings.read? (arguments : List String) (environment : List (String × String)) : Option Settings :=
  (Arguments.read arguments environment).toOption.bind fun a => (ofArguments a).toOption

theorem Settings.read?_eq_some_iff {arguments : List String} {environment : List (String × String)}
    {s : Settings} :
    read? arguments environment = some s ↔
      ∃ a, Arguments.read arguments environment = .ok a ∧ ofArguments a = .ok s := by
  have htoOption : ∀ {ε α : Type} {x : Except ε α} {a : α}, x.toOption = some a ↔ x = .ok a := by
    intro ε α x a
    cases x <;> simp [Except.toOption]
  simp only [read?, Option.bind_eq_some_iff, htoOption]

/-- Options and the environment give the settings that their texts denote. -/
theorem Settings.read?_commandLine_iff (h : EachOnce units) (environment : List (String × String))
    (s : Settings) :
    read? (commandLine units) environment = some s ↔ s.TakenFrom (sourceText units environment) := by
  rw [← firstOffered_offers, ← foldlM_offer_iff, read?_eq_some_iff, Arguments.read_commandLine h]
  cases (offers units environment).foldlM (fun (c : Choices) o => c.offer o.1 o.2) .empty with
  | error e => simp [Except.bind]
  | ok c => simp [Except.bind]

/-- The order in which settings are given does not matter, nor how their options are written. -/
theorem sourceText_perm (h : EachOnce units) {units' : List OptionUnit}
    (hperm : (units'.map OptionUnit.given).Perm (units.map OptionUnit.given))
    (environment : List (String × String)) :
    sourceText units' environment = sourceText units environment := by
  funext x
  rw [sourceText, sourceText, lookup_perm h hperm.symm]

/-- What the environment has for the settings that are given does not matter. -/
theorem sourceText_congr {environment environment' : List (String × String)}
    (hsame : ∀ x, (∀ u ∈ units, u.given.1 ≠ x) →
      environment'.lookup x.environmentName = environment.lookup x.environmentName) :
    sourceText units environment' = sourceText units environment := by
  funext x
  rw [sourceText, sourceText]
  cases hgiven : (units.map OptionUnit.given).lookup x with
  | some text => rfl
  | none =>
    rw [Option.none_or, Option.none_or]
    refine hsame x fun u hu heq => ?_
    have hx : x ∈ (units.map OptionUnit.given).map Prod.fst := by
      rw [← heq]
      exact List.mem_map_of_mem (List.mem_map_of_mem hu)
    obtain ⟨text, htext⟩ := exists_lookup hx
    cases hgiven.symm.trans htext

/-- Where each setting is given at most once by an option, in either spelling, the settings that come out
    are those that one text for each of them denotes: the text of its option, else that of its environment
    variable, else the default.  So they are the same for the options in any other order and in the other
    spelling, and for any other environment that differs in variables of settings that are given. -/
theorem settings_of_option_units (units : List OptionUnit) (environment : List (String × String))
    (h : EachOnce units) :
    (∀ s, Settings.read? (commandLine units) environment = some s ↔
      s.TakenFrom (sourceText units environment)) ∧
    (∀ units', (units'.map OptionUnit.given).Perm (units.map OptionUnit.given) →
      Settings.read? (commandLine units') environment = Settings.read? (commandLine units) environment) ∧
    (∀ environment', (∀ x, (∀ u ∈ units, u.given.1 ≠ x) →
        environment'.lookup x.environmentName = environment.lookup x.environmentName) →
      Settings.read? (commandLine units) environment' =
        Settings.read? (commandLine units) environment) := by
  refine ⟨Settings.read?_commandLine_iff h environment, fun units' hperm => ?_,
    fun environment' hsame => ?_⟩
  · have h' : EachOnce units' := (hperm.map Prod.fst).nodup_iff.2 h
    ext s
    rw [Settings.read?_commandLine_iff h', Settings.read?_commandLine_iff h, sourceText_perm h hperm]
  · ext s
    rw [Settings.read?_commandLine_iff h, Settings.read?_commandLine_iff h, sourceText_congr hsame]

/-- A model, the switch and a port. -/
def sampleUnits (joined : Bool) : List OptionUnit :=
  [.valued .model "m.json" (!joined) (by decide) (by decide), .switch,
    .valued .port "8080" joined (by decide) (by decide)]

/-- An environment whose text for the port denotes none. -/
def sampleEnvironment : List (String × String) :=
  [("OPSCOPE_BASE_ENDPOINT", " https://arm.example/ "), ("OPSCOPE_PORT", "none")]

/-- The settings that they give. -/
def sampleSettings : Settings :=
  { host := .v4 127 0 0 1, port := 8080, baseEndpoint := "https://arm.example", model := "m.json",
    logFilter := "info", jsonLogs := true }

theorem settings_of_option_units_sample :
    EachOnce (sampleUnits true) ∧
    Settings.read? ["--model", "m.json", "--json-logs", "--port=8080"] sampleEnvironment =
      some sampleSettings ∧
    Settings.read? ["--port", "8080", "--json-logs", "--model=m.json"] sampleEnvironment =
      some sampleSettings ∧
    Settings.read? ["--model", "m.json", "--json-logs", "--port=8080"]
      [("OPSCOPE_BASE_ENDPOINT", " https://arm.example/ "), ("OPSCOPE_JSON_LOGS", "no")] =
      some sampleSettings := by
  have honce : EachOnce (sampleUnits true) := by decide
  obtain ⟨hgiven, hperm, henv⟩ := settings_of_option_units (sampleUnits true) sampleEnvironment honce
  have hsample : Settings.read? (commandLine (sampleUnits true)) sampleEnvironment =
      some sampleSettings :=
    (hgiven sampleSettings).2 {
      host := ofText?_localHost
      port := by decide
      port_ne := by decide
      baseEndpoint := by decide +kernel
      model := by decide
      model_ne := by decide
      logFilter := by decide
      jsonLogs := by decide }
  refine ⟨honce, hsample, ?_, ?_⟩
  · exact (hperm (sampleUnits false).reverse (by decide)).trans hsample
  · refine (henv _ fun x hx => ?_).trans hsample
    cases x with
    | port =>
      refine absurd rfl (hx (.valued .port "8080" true (by decide) (by decide)) ?_)
      simp [sampleUnits]
    | jsonLogs => exact absurd rfl (hx .switch (by simp [sampleUnits]))
    | _ => rfl

end OperationCatalog
