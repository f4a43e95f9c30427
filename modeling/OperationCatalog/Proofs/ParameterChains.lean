import OperationCatalog.Proofs.ParameterNames
import OperationCatalog.Proofs.PropertyChains

/-!
# Parameters with dotted names

A parameter may have several names in one, joined by dots, and a chain of properties looks up one name
after the other.  Where the context has nothing under the first name, the two are the same: they are
displayed alike, so that they are the root token together, and otherwise both are the last name in
braces.  The parameter comes to it through its last run of characters, the chain because a text has no
properties.

## Key results

- `display_parameter_dotted`: the display form of the parameter is that of the chain
- `lastRun_dotted`: the last run of names joined by dots is the last name
- `Evaluator.evaluate_chain_of_missing`: a chain whose first name is missing has a text
- `parameter_of_missing_chain`: the parameter and the chain have the same text
-/

namespace OperationCatalog

/-- Whether a name is not empty and has no separator. -/
def PlainName (name : String) : Prop := name ≠ "" ∧ ∀ c ∈ name.toList, isSeparator c = false

instance (name : String) : Decidable (PlainName name) :=
  decidable_of_iff (name ≠ "" ∧ name.toList.all (!isSeparator ·) = true) (by simp [PlainName])

namespace Expression

/-! ## Names joined by dots -/

/-- Names that are not empty have a dot between each two. -/
theorem dotted_eq_intercalate {names : List String} (h : ∀ n ∈ names, n ≠ "") :
    dotted names = ".".intercalate names := by
  induction names using List.reverseRecOn with
  | nil => rfl
  | append_singleton front name ih =>
    obtain ⟨hfront, -⟩ := List.forall_mem_append.1 h
    rw [dotted_concat]
    split
    · rename_i hempty
      -- nothing stands before the last name
      cases front with
      | nil => rw [List.nil_append, String.intercalate_singleton]
      | cons n rest =>
        exact absurd (dotted_eq_empty_iff.1 hempty n List.mem_cons_self) (hfront n List.mem_cons_self)
    · rename_i hne
      have hcons : front ≠ [] := by
        rintro rfl
        exact hne rfl
      rw [String.intercalate_append_of_ne_nil hcons (List.cons_ne_nil _ _),
        String.intercalate_singleton, ih hfront]

theorem mem_dotted {c : Char} {names : List String} (h : c ∈ (dotted names).toList) :
    c = '.' ∨ ∃ n ∈ names, c ∈ n.toList := by
  induction names using List.reverseRecOn with
  | nil => cases h
  | append_singleton front name ih =>
    rw [dotted_concat] at h
    split at h
    · exact .inr ⟨name, by simp, h⟩
    · simp only [String.toList_append, List.mem_append] at h
      rcases h with (hfront | hdot) | hname
      · exact (ih hfront).imp_right fun ⟨n, hn, hc⟩ => ⟨n, List.mem_append_left _ hn, hc⟩
      · exact .inl (by simpa using hdot)
      · exact .inr ⟨name, by simp, hname⟩

/-- The last run of names joined by dots is the last name. -/
theorem lastRun_dotted (front : List String) {name : String} (h : PlainName name) :
    LastRun (dotted (front ++ [name])).toList name.toList := by
  have hname : LastRun name.toList name.toList :=
    ⟨⟨[], [], by simp, by simp, by simp⟩, by simpa using h.1, h.2⟩
  rw [dotted_concat]
  split
  · exact hname
  · have haround : LastRun ((dotted front).toList ++ ['.'] ++ name.toList ++ []) name.toList :=
      hname.around (by simp [isSeparator]) (by simp)
    simpa using haround

/-- A name without braces stays as it is. -/
theorem unbraced_of_not_mem {name : String} (hopen : '\x7b' ∉ name.toList)
    (hclose : '\x7d' ∉ name.toList) : unbraced name = name := by
  have hhead : name.toList.dropWhile (· = '\x7b') = name.toList := by
    refine Text.dropWhile_of_head? fun c hc => ?_
    simpa using fun heq : c = '\x7b' => hopen (heq ▸ List.mem_of_mem_head? hc)
  have hlast : Text.dropTrailing (· = '\x7d') name.toList = name.toList := by
    refine Text.dropTrailing_of_getLast? fun c hc => ?_
    simpa using fun heq : c = '\x7d' => hclose (heq ▸ List.mem_of_mem_getLast? hc)
  rw [unbraced, hhead, hlast, String.ofList_toList]

/-! ## Display forms -/

theorem display_parameter_dotted {first : String} {rest : List String}
    (h : ∀ n ∈ first :: rest, PlainName n) :
    (parameter (dotted (first :: rest))).display = (chain (first :: rest)).display := by
  have hnot : ∀ c, isSeparator c = true → c ≠ '.' → c ∉ (dotted (first :: rest)).toList := by
    intro c hsep hdot hmem
    obtain ⟨n, hn, hc⟩ := (mem_dotted hmem).resolve_left hdot
    rw [(h n hn).2 c hc] at hsep
    cases hsep
  rw [display, unbraced_of_not_mem (hnot '\x7b' rfl (by decide)) (hnot '\x7d' rfl (by decide))]
  obtain ⟨front, name, hconcat⟩ := List.eq_nil_or_concat' (first :: rest) |>.resolve_left
    (List.cons_ne_nil _ _)
  rw [hconcat, display_chain_concat]

/-- A chain whose first name is not empty is the root token only if it has no other name. -/
theorem isRootToken_chain_cons {first : String} (hne : first ≠ "") (rest : List String) :
    (chain (first :: rest)).isRootToken = true ↔
      rest = [] ∧ Text.sameIgnoringCase first "BaseUri" = true := by
  rcases List.eq_nil_or_concat' rest with rfl | ⟨front, name, rfl⟩
  · have hsingle := isRootToken_chain_concat [] first
    simpa using hsingle
  · rw [← List.cons_append, isRootToken_chain_concat]
    simp [hne]

end Expression

namespace Evaluator

open Expression

/-! ## Values -/

/-- A chain whose first name is missing has a text: it is the last name in braces, unless the chain is
    the root token. -/
theorem evaluate_chain_of_missing (ev : Evaluator) {first : String}
    (hmissing : ev.root.find? first = none) (rest : List String) :
    ev.evaluate (chain (first :: rest)) =
      .ok (.text (if (chain (first :: rest)).isRootToken then ev.baseEndpoint
        else placeholder (rest.getLastD first))) := by
  induction rest using List.reverseRecOn with
  | nil =>
    have hsingle : chain [first] = .property .root first := rfl
    cases htoken : (chain [first]).isRootToken with
    | true => exact ev.evaluate_of_isRootToken htoken
    | false =>
      have hmissing' : ev.root.bound.get? first = none := by
        rw [Context.bound, BoundValue.get?, Place.get?, hmissing, Option.map_none]
      have hvalue : ev.root.bound ≠ .null := by simp [Context.bound]
      rw [hsingle] at htoken ⊢
      rw [ev.evaluate_property htoken, ev.evaluate_root]
      exact (BoundValue.lookUp_of_ne_null hvalue .root first).trans (by rw [hmissing']; rfl)
  | append_singleton front name ih =>
    rw [← List.cons_append, chain_concat]
    cases htoken : (property (chain (first :: front)) name).isRootToken with
    | true => exact ev.evaluate_of_isRootToken htoken
    | false =>
      -- the names before have come to a text, and a text has no properties
      rw [ev.evaluate_property htoken, ih, List.getLastD_concat]
      rfl

end Evaluator

open Expression

/-- A parameter whose name is several names joined by dots, and the chain that looks these names up in a
    context without the first one, are displayed alike and have the same text: the base endpoint if there
    is one name and this is that of the base endpoint, and otherwise the last name in braces, with its
    first character in lower case. -/
theorem parameter_of_missing_chain (ev : Evaluator) (first : String) (rest : List String)
    (hnames : ∀ n ∈ first :: rest, PlainName n) (hmissing : ev.root.find? first = none) :
    (parameter (".".intercalate (first :: rest))).display = (chain (first :: rest)).display ∧
    ∃ t, ev.evaluate (.parameter (".".intercalate (first :: rest))) = .ok (.text t) ∧
      ev.evaluate (chain (first :: rest)) = .ok (.text t) ∧
      t = if rest = [] ∧ Text.sameIgnoringCase first "BaseUri" = true then ev.baseEndpoint
        else placeholder (rest.getLastD first) := by
  have hdisplay := display_parameter_dotted hnames
  rw [← dotted_eq_intercalate fun n hn => (hnames n hn).1]
  refine ⟨hdisplay, ?_⟩
  have htoken : (parameter (dotted (first :: rest))).isRootToken =
      (chain (first :: rest)).isRootToken :=
    isRootToken_congr hdisplay
  have hne : first ≠ "" := (hnames first List.mem_cons_self).1
  have hchain := ev.evaluate_chain_of_missing hmissing rest
  refine ⟨_, ?_, hchain, by simp only [isRootToken_chain_cons hne rest]⟩
  cases hroot : (chain (first :: rest)).isRootToken with
  | true => exact ev.evaluate_of_isRootToken (htoken.trans hroot)
  | false =>
    have hlast : LastRun (dotted (first :: rest)).toList (rest.getLastD first).toList := by
      rcases List.eq_nil_or_concat' rest with rfl | ⟨front, name, rfl⟩
      · exact lastRun_dotted [] (hnames first List.mem_cons_self)
      · rw [List.getLastD_concat]
        exact lastRun_dotted (first :: front) (hnames name (by simp))
    exact ev.evaluate_parameter_of_lastRun (htoken.trans hroot) hlast

/-- Three names, the first of which is that of the base endpoint, and this name alone. -/
theorem parameter_of_missing_chain_sample :
    (Evaluator.evaluate ⟨"https://h", [("A", .null)]⟩ (.parameter "BaseUri.A.Id") =
        .ok (.text "\x7bid\x7d") ∧
      Evaluator.evaluate ⟨"https://h", [("A", .null)]⟩ (chain ["BaseUri", "A", "Id"]) =
        .ok (.text "\x7bid\x7d")) ∧
    Evaluator.evaluate ⟨"https://h", [("A", .null)]⟩ (.parameter "baseURI") =
        .ok (.text "https://h") ∧
      Evaluator.evaluate ⟨"https://h", [("A", .null)]⟩ (chain ["baseURI"]) =
        .ok (.text "https://h") := by
  obtain ⟨-, t, hparameter, hchain, ht⟩ := parameter_of_missing_chain ⟨"https://h", [("A", .null)]⟩
    "BaseUri" ["A", "Id"] (by decide) rfl
  obtain ⟨-, t', hparameter', hchain', ht'⟩ := parameter_of_missing_chain
    ⟨"https://h", [("A", .null)]⟩ "baseURI" [] (by decide) rfl
  have htext : t = "\x7bid\x7d" := ht
  have htext' : t' = "https://h" := ht'
  rw [htext] at hparameter hchain
  rw [htext'] at hparameter' hchain'
  exact ⟨⟨hparameter, hchain⟩, hparameter', hchain'⟩

end OperationCatalog
