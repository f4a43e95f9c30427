import OperationCatalog.Proofs.MethodRoundTrip

/-!
# Verbs have one text

A verb is decoded from the upper case of a text without the white space around it.  Upper-casing is
done once for all and neither makes white space nor takes it away, so this text stands for the verb: it
would be decoded to the verb again, and of the text that was decoded, its case and the white space
around it are of no account.  The common verbs are found by their names, wherefore none of these names
is the text of another verb.

## Key results

- `Verb.handedOver_eq_text`: both texts of a verb are the same
- `Verb.ofText_eq_iff`: texts denote the same verb if they are the same when trimmed and in upper case
- `Verb.canonical_ofText`: decoded verbs are canonical
- `decoded_verb_has_one_text`: the text of a decoded verb, and which texts denote it
-/

namespace OperationCatalog

open Text (isBlank Trimmed)

namespace Verb

theorem handedOver_eq_text (v : Verb) : v.handedOver = v.text := by
  cases v <;> rfl

/-- The names of the common verbs. -/
def commonNames : List String := ["GET", "POST", "PUT", "DELETE", "HEAD", "PATCH", "OPTIONS"]

/-- A verb in its one form: both of its texts are the same, which is also the one that is written, is
    trimmed and in upper case and denotes the verb; and the text of a verb that is not common is none of
    the common names. -/
structure Canonical (v : Verb) : Prop where
  handedOver_eq : v.handedOver = v.text
  toValue_eq : v.toValue = .text v.handedOver
  trimmed : Trimmed v.text.toList
  upper_eq : Text.upper v.text = v.text
  denoted : ofText v.text = v
  not_common : ∀ t, v = .other t → t ∉ commonNames

/-- A common name is never kept as the text of another verb. -/
theorem not_common_of_ofCanonical {text t : String} (h : ofCanonical text = .other t) :
    t ∉ commonNames := by
  have hcommon : ∀ name ∈ commonNames, ofCanonical name ≠ .other name := by decide
  -- the text that was kept is the one that was looked for
  have htext : t = text := by
    have hkept := text_ofCanonical text
    rwa [h] at hkept
  intro hmem
  exact hcommon t hmem (by rw [htext] at h ⊢; exact h)

/-- The text of a decoded verb is in upper case and has no white space around it. -/
theorem canonical_ofText (s : String) : (ofText s).Canonical where
  handedOver_eq := handedOver_eq_text (ofText s)
  toValue_eq := by rw [toValue, handedOver_eq_text]
  trimmed := by
    rw [text_ofText, Text.toList_upper, Text.toList_trim]
    exact (Text.trimmed_trimChars s.toList).upperChars
  upper_eq := by
    rw [text_ofText, ← String.toList_inj]
    simp only [Text.toList_upper, Text.upperChars_upperChars]
  denoted := ofText_text ⟨s, rfl⟩
  not_common := fun _ h => not_common_of_ofCanonical h

/-- Decoded verbs are as different as their texts. -/
theorem ofText_eq_iff_text {s s' : String} : ofText s = ofText s' ↔ (ofText s).text = (ofText s').text := by
  refine ⟨congrArg text, fun h => ?_⟩
  rw [← (canonical_ofText s).denoted, h, (canonical_ofText s').denoted]

/-- Two texts denote the same verb exactly if they are the same when trimmed and in upper case. -/
theorem ofText_eq_iff {s s' : String} :
    ofText s = ofText s' ↔ Text.upper (Text.trim s) = Text.upper (Text.trim s') := by
  rw [ofText_eq_iff_text, text_ofText, text_ofText]

end Verb

open Verb

/-- A decoded verb has one text, which is that of the text it was decoded from, trimmed and in upper case.
    So white space around a text and upper-casing it make no difference to the verb, and neither does
    anything else as long as the text of the verb is the same. -/
theorem decoded_verb_has_one_text (s : String) :
    (ofText s).Canonical ∧ (ofText s).text = Text.upper (Text.trim s) ∧
    (∀ front back : String, (∀ c ∈ front.toList, isBlank c = true) →
      (∀ c ∈ back.toList, isBlank c = true) → ofText (front ++ s ++ back) = ofText s) ∧
    ofText (Text.upper s) = ofText s ∧
    ∀ s', ofText s = ofText s' ↔ (ofText s).text = (ofText s').text := by
  refine ⟨canonical_ofText s, text_ofText s, fun front back hfront hback => ?_, ?_, ?_⟩
  · have htrim : Text.trim (front ++ s ++ back) = Text.trim s := by
      rw [← String.toList_inj]
      simp only [Text.toList_trim, String.toList_append, Text.trimChars_around hfront hback]
    rw [ofText, htrim, ofText]
  · exact ofText_eq_iff.2 (Text.upper_trim_of_upper s)
  · exact fun s' => ofText_eq_iff_text

/-- A verb of its own, whose upper case is longer, and a common one, with wide spaces around them. -/
theorem decoded_verb_has_one_text_sample :
    ofText "\u2003stra\u00dfe\u00a0" = .other "STRASSE" ∧ ofText " p\u0131ng\t" = .other "PING" ∧
      ofText "\u3000Patch" = .patch := by
  have hblank : ∀ space ∈ ["\u2003", "\u00a0", " ", "\t", "\u3000", ""],
      space.toList.all isBlank = true := by
    decide
  have haround : ∀ front ∈ _, ∀ back ∈ _, ∀ s, ofText (front ++ s ++ back) = ofText s :=
    fun front hfront back hback s => (decoded_verb_has_one_text s).2.2.1 front back
      (List.all_eq_true.1 (hblank front hfront)) (List.all_eq_true.1 (hblank back hback))
  exact ⟨(haround "\u2003" (by decide) "\u00a0" (by decide) "stra\u00dfe").trans rfl,
    (haround " " (by decide) "\t" (by decide) "p\u0131ng").trans rfl,
    (haround "\u3000" (by decide) "" (by decide) "Patch").trans rfl⟩

end OperationCatalog
