import SchemaDocs.Proofs.Html.Layout
import SchemaDocs.Proofs.Json.Printable
/-!
# Script data

Data inside a script is printable ASCII without the characters that have a meaning in markup, and it
is read back as JSON, since those characters occur in strings only and are still spelled there.
-/

namespace SchemaDocs.Html

open Json (Respelling Readable RealLiterals isPlain isPrintable)

theorem scriptSafeOne_of_isPlain {c : CodePoint} (hc : isPlain c = true) :
    scriptSafeOne c = [c] := by
  have hne : ∀ {d : CodePoint}, isPlain d = false → c ≠ d := Json.ne_of_isPlain hc
  rw [scriptSafeOne, if_neg (hne rfl), if_neg (hne rfl), if_neg (hne rfl), if_neg (hne rfl)]

theorem scriptSafeOne_of_isPrintable {c : CodePoint} (hc : isPrintable c = true) :
    scriptSafeOne c = [c] ∧ isPlain c = true ∨ scriptSafeOne c = Json.unicodeEscape c.value := by
  unfold scriptSafeOne
  split
  · next h => exact .inr (by rw [h]; rfl)
  split
  · next h => exact .inr (by rw [h]; rfl)
  split
  · next h => exact .inr (by rw [h]; rfl)
  split
  · next h => exact .inr (by rw [h]; rfl)
  · next hlt hgt hamp hquote =>
      have hvalue : ∀ d : Char, c ≠ CodePoint.ofChar d → c.value ≠ d.toNat := fun d hd heq =>
        hd (CodePoint.ext heq)
      have hlt := hvalue _ hlt
      have hgt := hvalue _ hgt
      have hamp := hvalue _ hamp
      have hquote := hvalue _ hquote
      refine .inl ⟨rfl, ?_⟩
      simp only [isPrintable, Bool.and_eq_true, decide_eq_true_eq] at hc
      simp only [isPlain, Bool.and_eq_true, decide_eq_true_eq, bne_iff_ne]
      exact ⟨⟨⟨⟨hc, hamp⟩, hquote⟩, hlt⟩, hgt⟩

theorem respelling_scriptSafeOne : Respelling scriptSafeOne where
  plain _ hc := scriptSafeOne_of_isPlain hc
  spells c := by
    rcases (Json.written_escaped c).eq_or_isPlain with ⟨heq, hc⟩ | hplain
    · rcases scriptSafeOne_of_isPrintable hc with ⟨hself, -⟩ | hescape
      · rw [heq, List.flatMap_singleton, hself, ← heq]
        exact Json.spells_escaped c
      · have hc : c.value < 0x10000 := by
          simp only [isPrintable, Bool.and_eq_true, decide_eq_true_eq] at hc
          omega
        rw [heq, List.flatMap_singleton, hescape]
        exact .unit hc
    · rw [Json.flatMap_of_isPlain (fun _ hd => scriptSafeOne_of_isPlain hd) hplain]
      exact Json.spells_escaped c

theorem read_scriptText {data : Json} (hdata : Readable data) :
    Json.read (scriptText data) = .ok data :=
  Json.read_respelled respelling_scriptSafeOne hdata

theorem isPlain_of_mem_scriptText {data : Json} (hdata : RealLiterals data) {c : CodePoint}
    (hc : c ∈ scriptText data) : isPlain c = true := by
  obtain ⟨d, hd, hc⟩ := List.mem_flatMap.mp hc
  rcases scriptSafeOne_of_isPrintable (Json.isPrintable_text data hdata d hd) with
    ⟨hself, hplain⟩ | hescape
  · rw [hself, List.mem_singleton] at hc
    rwa [hc]
  · rw [hescape] at hc
    exact Json.isPlain_unicodeEscape _ c hc

theorem isPlain_scriptText {data : Json} (hdata : Readable data) :
    ∀ c ∈ scriptText data, isPlain c = true :=
  fun _ hc => isPlain_of_mem_scriptText hdata.realLiterals hc

theorem lt_notMem_scriptText {data : Json} (hdata : RealLiterals data) :
    CodePoint.ofChar '<' ∉ scriptText data := fun hmem =>
  absurd (isPlain_of_mem_scriptText hdata hmem) (by decide)

end SchemaDocs.Html
