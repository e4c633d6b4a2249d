import SchemaDocs.Text.Basic
/-!
# Fixed texts

Fixed texts are told apart by their strings, and the text of two strings put together is the texts
of both.
-/

namespace SchemaDocs

theorem CodePoint.ofChar_injective : Function.Injective CodePoint.ofChar := by
  intro c d h
  have hvalue : c.toNat = d.toNat := congrArg CodePoint.value h
  exact Char.toNat_inj.mp hvalue

namespace Text

@[simp] theorem ofString_inj {s t : String} : ofString s = ofString t ↔ s = t := by
  constructor
  · intro h
    have hchars : s.toList = t.toList :=
      (List.map_inj_right fun _ _ hc => CodePoint.ofChar_injective hc).mp h
    exact String.toList_inj.mp hchars
  · exact congrArg ofString

theorem ofString_append (s t : String) : ofString (s ++ t) = ofString s ++ ofString t := by
  simp [ofString]

end Text

end SchemaDocs
