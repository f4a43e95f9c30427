import OperationCatalog.Settings

/-!
# Where the value of a setting comes from

Each setting has values of its own kind, and a text denotes one of them or none.  `Choices.get?` looks at
the values that were chosen setting by setting, so that what one step does to them is said once for all
settings: it chooses a value for one setting and leaves the others alone.  A row of texts that are offered
for settings then comes to this: every setting takes the first text that is offered for it, and all goes
well exactly if each of these texts denotes a value.

## Key results

- `Choices.set_eq`: what choosing a value for a setting does
- `Choices.TakenFrom.offer`, `Choices.TakenFrom.exists_offer`: what one offer does
- `Choices.TakenFrom.foldlM_offer_iff`: what a row of offers comes to
- `Settings.foldlM_offer_iff`: the valid settings that a row of offers gives
-/

namespace OperationCatalog

/-! ## Values of settings -/

namespace Setting

/-- The values of a setting. -/
def Value : Setting → Type
  | .host => Address
  | .port => Nat
  | .baseEndpoint | .model | .logFilter => String
  | .jsonLogs => Bool

/-- The truth value that a text denotes. -/
def boolOfText? (text : String) : Option Bool :=
  if text = "true" then some true else if text = "false" then some false else none

/-- The value that a text denotes for a setting. -/
def ofText? : (x : Setting) → String → Option x.Value
  | .host, text => Address.ofText? text
  | .port, text => portOfText? text
  | .baseEndpoint, text => some text
  | .model, text => if text.isEmpty then none else some text
  | .logFilter, text => some text
  | .jsonLogs, text => boolOfText? text

/-- The fault of a text that denotes no value. -/
def fault : Setting → ArgumentError
  | .host | .port => .valueValidation
  | _ => .invalidValue

end Setting

namespace Choices

/-- The value that is chosen for a setting. -/
def get? (c : Choices) : (x : Setting) → Option x.Value
  | .host => c.host
  | .port => c.port
  | .baseEndpoint => c.baseEndpoint
  | .model => c.model
  | .logFilter => c.logFilter
  | .jsonLogs => c.jsonLogs

/-- The values with another one for a setting. -/
def put (c : Choices) : (x : Setting) → x.Value → Choices
  | .host, v => { c with host := some v }
  | .port, v => { c with port := some v }
  | .baseEndpoint, v => { c with baseEndpoint := some v }
  | .model, v => { c with model := some v }
  | .logFilter, v => { c with logFilter := some v }
  | .jsonLogs, v => { c with jsonLogs := some v }

variable {c c' : Choices}

theorem ext_get? (h : ∀ x, c.get? x = c'.get? x) : c = c' := by
  obtain ⟨host, port, baseEndpoint, model, logFilter, jsonLogs⟩ := c
  have hhost := h .host
  have hport := h .port
  have hbase := h .baseEndpoint
  have hmodel := h .model
  have hfilter := h .logFilter
  have hlogs := h .jsonLogs
  simp only [get?] at hhost hport hbase hmodel hfilter hlogs
  rw [hhost, hport, hbase, hmodel, hfilter, hlogs]

theorem get?_empty (x : Setting) : empty.get? x = none := by
  cases x <;> rfl

theorem has_eq (c : Choices) (x : Setting) : c.has x = (c.get? x).isSome := by
  cases x <;> rfl

theorem get?_put_self (c : Choices) (x : Setting) (v : x.Value) : (c.put x v).get? x = some v := by
  cases x <;> rfl

/-- The other settings keep their values. -/
theorem get?_put_of_ne (c : Choices) {x y : Setting} (h : y ≠ x) (v : x.Value) :
    (c.put x v).get? y = c.get? y := by
  cases x <;> cases y <;> first | rfl | exact absurd rfl h

/-- A text is chosen for a setting if it denotes one of its values. -/
theorem set_eq (c : Choices) (x : Setting) (text : String) :
    c.set x text = (x.ofText? text).elim (.error x.fault) fun v => .ok (c.put x v) := by
  cases x with
  | host | port =>
    rw [set, Setting.ofText?]
    split
    · rename_i hvalue
      rw [hvalue]
      rfl
    · rename_i hvalue
      rw [hvalue]
      rfl
  | baseEndpoint | logFilter => rfl
  | model =>
    rw [set, Setting.ofText?]
    split <;> rfl
  | jsonLogs =>
    rw [set, Setting.ofText?, Setting.boolOfText?]
    split
    · rfl
    · split <;> rfl

theorem set_eq_ok_iff {x : Setting} {text : String} :
    c.set x text = .ok c' ↔ ∃ v, x.ofText? text = some v ∧ c' = c.put x v := by
  rw [set_eq]
  cases x.ofText? text with
  | none => simp
  | some v => simp [eq_comm]

/-! ## Offers -/

/-- The values with that of a text that is offered for a setting.  If the setting has a value, or there is
    no text, then nothing is done. -/
def offer (c : Choices) (x : Setting) (text? : Option String) : Except ArgumentError Choices :=
  match c.has x, text? with
  | false, some text => c.set x text
  | _, _ => .ok c

/-- Whether the values are those that these texts denote: each setting with a text has the value of it,
    and no other one has a value. -/
def TakenFrom (c : Choices) (texts : Setting → Option String) : Prop :=
  ∀ x, (c.get? x).map some = (texts x).map x.ofText?

theorem takenFrom_empty : empty.TakenFrom fun _ => none := by
  intro x
  rw [get?_empty]
  rfl

namespace TakenFrom

variable {texts : Setting → Option String}

theorem ofText?_eq (h : c.TakenFrom texts) {x : Setting} {text : String} (htext : texts x = some text) :
    ∃ v, x.ofText? text = some v := by
  have hx := h x
  rw [htext] at hx
  cases hget : c.get? x with
  | none =>
    rw [hget] at hx
    cases hx
  | some v =>
    rw [hget] at hx
    exact ⟨v, (Option.some.inj hx).symm⟩

theorem has_eq (h : c.TakenFrom texts) (x : Setting) : c.has x = (texts x).isSome := by
  have hx := congrArg Option.isSome (h x)
  rwa [Option.isSome_map, Option.isSome_map, ← Choices.has_eq] at hx

/-- The texts determine the values. -/
theorem unique (h : c.TakenFrom texts) (h' : c'.TakenFrom texts) : c = c' := by
  refine ext_get? fun x => ?_
  have hx := (h x).trans (h' x).symm
  cases hc : c.get? x <;> cases hc' : c'.get? x <;> simp_all

/-- After an offer, the text that was offered is taken where there was none. -/
theorem offer (h : c.TakenFrom texts) {x : Setting} {text? : Option String}
    (hoffer : c.offer x text? = .ok c') :
    c'.TakenFrom fun y => (texts y).or (if x = y then text? else none) := by
  intro y
  show (c'.get? y).map some = ((texts y).or (if x = y then text? else none)).map y.ofText?
  rw [Choices.offer.eq_def, h.has_eq] at hoffer
  cases htaken : texts x with
  | some taken =>
    rw [htaken] at hoffer
    cases hoffer
    by_cases hxy : x = y
    · subst hxy
      rw [h x, htaken]
      rfl
    · rw [if_neg hxy, Option.or_none]
      exact h y
  | none =>
    rw [htaken] at hoffer
    cases text? with
    | none =>
      cases hoffer
      rw [ite_self, Option.or_none]
      exact h y
    | some text =>
      -- the text is the one that is taken
      obtain ⟨v, hv, rfl⟩ := set_eq_ok_iff.1 hoffer
      by_cases hxy : x = y
      · subst hxy
        rw [get?_put_self, htaken, if_pos rfl, Option.none_or, Option.map_some, Option.map_some, hv]
      · rw [get?_put_of_ne _ (Ne.symm hxy), if_neg hxy, Option.or_none]
        exact h y

/-- An offer is accepted if its text denotes a value or is not looked at. -/
theorem exists_offer (h : c.TakenFrom texts) {x : Setting} {text? : Option String}
    (hvalid : ∀ text, (texts x).or text? = some text → ∃ v, x.ofText? text = some v) :
    ∃ c', c.offer x text? = .ok c' := by
  rw [Choices.offer.eq_def, h.has_eq]
  split
  · rename_i text hnone
    rw [Option.isSome_eq_false_iff, Option.isNone_iff_eq_none] at hnone
    obtain ⟨v, hv⟩ := hvalid text (by rw [hnone, Option.none_or])
    exact ⟨_, set_eq_ok_iff.2 ⟨v, hv, rfl⟩⟩
  · exact ⟨c, rfl⟩

end TakenFrom

/-- The first text that is offered for a setting. -/
def firstOffered (offers : List (Setting × Option String)) (x : Setting) : Option String :=
  offers.findSome? fun o => if o.1 = x then o.2 else none

theorem firstOffered_cons (o : Setting × Option String) (rest : List (Setting × Option String))
    (x : Setting) :
    firstOffered (o :: rest) x = (if o.1 = x then o.2 else none).or (firstOffered rest x) := by
  rw [firstOffered, List.findSome?_cons]
  cases (if o.1 = x then o.2 else none) <;> rfl

namespace TakenFrom

variable {texts : Setting → Option String}

/-- After a row of offers, every setting without a text has the first one that was offered for it. -/
theorem foldlM_offer {offers : List (Setting × Option String)} (h : c.TakenFrom texts)
    (hoffers : offers.foldlM (fun c o => c.offer o.1 o.2) c = .ok c') :
    c'.TakenFrom fun x => (texts x).or (firstOffered offers x) := by
  induction offers generalizing c texts with
  | nil =>
    cases hoffers
    simpa [firstOffered] using h
  | cons o rest ih =>
    rw [List.foldlM_cons] at hoffers
    cases hfirst : c.offer o.1 o.2 with
    | error e =>
      rw [hfirst] at hoffers
      cases hoffers
    | ok c₁ =>
      rw [hfirst] at hoffers
      have hrest := ih (h.offer hfirst) hoffers
      simpa only [firstOffered_cons, Option.or_assoc] using hrest

/-- All offers are accepted if the texts that are taken denote values. -/
theorem exists_foldlM_offer {offers : List (Setting × Option String)} (h : c.TakenFrom texts)
    (hvalid : ∀ x text, (texts x).or (firstOffered offers x) = some text →
      ∃ v, x.ofText? text = some v) :
    ∃ c', offers.foldlM (fun c o => c.offer o.1 o.2) c = .ok c' := by
  induction offers generalizing c texts with
  | nil => exact ⟨c, rfl⟩
  | cons o rest ih =>
    simp only [firstOffered_cons, ← Option.or_assoc] at hvalid
    obtain ⟨c₁, hfirst⟩ : ∃ c₁, c.offer o.1 o.2 = .ok c₁ := by
      refine h.exists_offer fun text htext => hvalid o.1 text ?_
      rw [if_pos rfl, htext, Option.some_or]
    obtain ⟨c', hrest⟩ := ih (h.offer hfirst) hvalid
    refine ⟨c', ?_⟩
    rw [List.foldlM_cons, hfirst]
    exact hrest

/-- A row of offers comes to the values of the first text for each setting, if they denote values. -/
theorem foldlM_offer_iff {offers : List (Setting × Option String)} (h : c.TakenFrom texts) :
    offers.foldlM (fun c o => c.offer o.1 o.2) c = .ok c' ↔
      c'.TakenFrom fun x => (texts x).or (firstOffered offers x) := by
  refine ⟨h.foldlM_offer, fun h' => ?_⟩
  obtain ⟨c₁, hoffers⟩ := h.exists_foldlM_offer fun x text htext => h'.ofText?_eq htext
  rw [hoffers, (h.foldlM_offer hoffers).unique h']

end TakenFrom

end Choices

/-! ## Valid settings -/

/-- The settings that are denoted by one text for each of them, or by the default where there is no text.
    The port is not zero, the model has no default, and the base endpoint is put into its normal form. -/
structure Settings.TakenFrom (s : Settings) (texts : Setting → Option String) : Prop where
  host : Address.ofText? ((texts .host).getD "127.0.0.1") = some s.host
  port : portOfText? ((texts .port).getD "18790") = some s.port
  port_ne : s.port ≠ 0
  baseEndpoint : normalBaseEndpoint ((texts .baseEndpoint).getD "https://management.azure.com") =
    .ok s.baseEndpoint
  model : texts .model = some s.model
  model_ne : s.model ≠ ""
  logFilter : (texts .logFilter).getD "info" = s.logFilter
  jsonLogs : (texts .jsonLogs).getD "false" = if s.jsonLogs then "true" else "false"

/-- The settings that values and defaults make, if they are valid. -/
theorem Settings.ofChoices_iff {c : Choices} {s : Settings} :
    (∃ a, Arguments.ofChoices c = .ok a ∧ ofArguments a = .ok s) ↔
      c.host.getD (.v4 127 0 0 1) = s.host ∧ c.port.getD 18790 = s.port ∧ s.port ≠ 0 ∧
      normalBaseEndpoint (c.baseEndpoint.getD Arguments.defaultBaseEndpoint) = .ok s.baseEndpoint ∧
      c.model = some s.model ∧ c.logFilter.getD "info" = s.logFilter ∧
      c.jsonLogs.getD false = s.jsonLogs := by
  constructor
  · rintro ⟨a, ha, hs⟩
    rw [Arguments.ofChoices] at ha
    cases hmodel : c.model with
    | none => simp [hmodel] at ha
    | some model =>
      rw [hmodel] at ha
      cases ha
      rw [ofArguments] at hs
      split at hs
      · cases hs
      · rename_i hport
        split at hs
        · cases hs
        · rename_i b hb
          cases hs
          exact ⟨rfl, rfl, hport, hb, rfl, rfl, rfl⟩
  · rintro ⟨hhost, hport, hne, hbase, hmodel, hfilter, hlogs⟩
    refine ⟨⟨s.host, s.port, c.baseEndpoint.getD Arguments.defaultBaseEndpoint, s.model, s.logFilter,
      s.jsonLogs⟩, ?_, ?_⟩
    · rw [Arguments.ofChoices, hmodel]
      simp only [hhost, hport, hfilter, hlogs]
    · rw [ofArguments, if_neg hne]
      simp only [hbase]

/-- A value that a text denotes, and the default if there is no text, is denoted by the text or by that of
    the default. -/
theorem ofText?_getD_iff {α : Type} {ofText? : String → Option α} {text? : Option String} {v? : Option α}
    (h : v?.map some = text?.map ofText?) {text : String} {default : α}
    (hdefault : ofText? text = some default) (v : α) :
    ofText? (text?.getD text) = some v ↔ v?.getD default = v := by
  cases text? with
  | none =>
    cases v? with
    | none => simp [hdefault]
    | some w => cases h
  | some t =>
    cases v? with
    | none => cases h
    | some w =>
      have hw : ofText? t = some w := (Option.some.inj h).symm
      simp [hw]

theorem Setting.boolOfText?_eq_some_iff {text : String} {b : Bool} :
    boolOfText? text = some b ↔ text = if b then "true" else "false" := by
  rw [boolOfText?]
  split
  · rename_i htrue
    rw [htrue]
    cases b <;> decide
  · rename_i htrue
    split
    · rename_i hfalse
      rw [hfalse]
      cases b <;> decide
    · rename_i hfalse
      cases b
      · exact ⟨nofun, fun h => absurd h hfalse⟩
      · exact ⟨nofun, fun h => absurd h htrue⟩

theorem ofText?_localHost : Address.ofText? "127.0.0.1" = some (.v4 127 0 0 1) := by
  decide +kernel

/-- The model is the text for it, and not empty. -/
theorem Choices.TakenFrom.model_eq {c : Choices} {texts : Setting → Option String}
    (h : c.TakenFrom texts) (model : String) :
    texts .model = some model ∧ model ≠ "" ↔ c.model = some model := by
  have hget : c.model.map some = (texts .model).map (Setting.ofText? .model) := h .model
  generalize texts .model = text? at hget ⊢
  cases text? with
  | none =>
    cases hmodel : c.model with
    | none => simp
    | some m =>
      rw [hmodel] at hget
      cases hget
  | some text =>
    obtain ⟨m, hm, hdenoted⟩ := Option.map_eq_some_iff.1 hget
    rw [Setting.ofText?] at hdenoted
    split at hdenoted
    · cases hdenoted
    · rename_i hne
      cases hdenoted
      rw [String.isEmpty_iff] at hne
      rw [hm]
      refine ⟨And.left, fun heq => ⟨heq, ?_⟩⟩
      rwa [← Option.some.inj heq]

/-- Values that texts denote make the settings that the texts denote. -/
theorem Choices.TakenFrom.settings_iff {c : Choices} {texts : Setting → Option String}
    (h : c.TakenFrom texts) {s : Settings} :
    s.TakenFrom texts ↔ ∃ a, Arguments.ofChoices c = .ok a ∧ Settings.ofArguments a = .ok s := by
  have hsame : ∀ {v? text? : Option String}, v?.map some = text?.map some → text? = v? := by
    intro v? text? heq
    cases v? <;> cases text? <;> simp_all
  have hhost := ofText?_getD_iff (h .host) ofText?_localHost s.host
  have hport := ofText?_getD_iff (h .port) (by decide : portOfText? "18790" = some 18790) s.port
  have hbase : texts .baseEndpoint = c.baseEndpoint := hsame (h .baseEndpoint)
  have hfilter : texts .logFilter = c.logFilter := hsame (h .logFilter)
  have hlogs := ofText?_getD_iff (h .jsonLogs)
    (by decide : Setting.boolOfText? "false" = some false) s.jsonLogs
  have hmodel := h.model_eq s.model
  rw [Settings.ofChoices_iff]
  constructor
  · intro hs
    refine ⟨hhost.1 hs.host, hport.1 hs.port, hs.port_ne, ?_, hmodel.1 ⟨hs.model, hs.model_ne⟩, ?_, ?_⟩
    · rw [← hbase]
      exact hs.baseEndpoint
    · rw [← hfilter]
      exact hs.logFilter
    · exact hlogs.1 (Setting.boolOfText?_eq_some_iff.2 hs.jsonLogs)
  · rintro ⟨hhost', hport', hne, hbase', hmodel', hfilter', hlogs'⟩
    exact {
      host := hhost.2 hhost'
      port := hport.2 hport'
      port_ne := hne
      baseEndpoint := by rw [hbase]; exact hbase'
      model := (hmodel.2 hmodel').1
      model_ne := (hmodel.2 hmodel').2
      logFilter := by rw [hfilter]; exact hfilter'
      jsonLogs := Setting.boolOfText?_eq_some_iff.1 (hlogs.2 hlogs') }

/-- Every text that denotes a setting denotes a value for it. -/
theorem Settings.TakenFrom.ofText?_eq {s : Settings} {texts : Setting → Option String}
    (h : s.TakenFrom texts) {x : Setting} {text : String} (htext : texts x = some text) :
    ∃ v, x.ofText? text = some v := by
  cases x with
  | host =>
    have hhost := h.host
    rw [htext, Option.getD_some] at hhost
    exact ⟨s.host, hhost⟩
  | port =>
    have hport := h.port
    rw [htext, Option.getD_some] at hport
    exact ⟨s.port, hport⟩
  | baseEndpoint | logFilter => exact ⟨text, rfl⟩
  | model =>
    have hmodel : text = s.model := Option.some.inj (htext.symm.trans h.model)
    have hne : text.isEmpty = false := by
      rw [Bool.eq_false_iff, ne_eq, String.isEmpty_iff, hmodel]
      exact h.model_ne
    exact ⟨text, by rw [Setting.ofText?, hne]; rfl⟩
  | jsonLogs =>
    have hlogs := h.jsonLogs
    rw [htext, Option.getD_some] at hlogs
    exact ⟨s.jsonLogs, Setting.boolOfText?_eq_some_iff.2 hlogs⟩

/-- A row of offers comes to valid settings exactly if the first texts that are offered denote them. -/
theorem Settings.foldlM_offer_iff {offers : List (Setting × Option String)} {s : Settings} :
    (∃ c, offers.foldlM (fun c o => c.offer o.1 o.2) Choices.empty = .ok c ∧
      ∃ a, Arguments.ofChoices c = .ok a ∧ ofArguments a = .ok s) ↔
      s.TakenFrom (Choices.firstOffered offers) := by
  have hoffers : ∀ c : Choices, offers.foldlM (fun c o => c.offer o.1 o.2) Choices.empty = .ok c ↔
      c.TakenFrom (Choices.firstOffered offers) := by
    intro c
    rw [Choices.takenFrom_empty.foldlM_offer_iff]
    simp only [Option.none_or]
  constructor
  · rintro ⟨c, hc, hs⟩
    exact ((hoffers c).1 hc).settings_iff.2 hs
  · intro hs
    obtain ⟨c, hc⟩ : ∃ c, offers.foldlM (fun c o => c.offer o.1 o.2) Choices.empty = .ok c :=
      Choices.takenFrom_empty.exists_foldlM_offer fun x text htext =>
        hs.ofText?_eq (by simpa only [Option.none_or] using htext)
    exact ⟨c, hc, ((hoffers c).1 hc).settings_iff.1 hs⟩

end OperationCatalog
