import SchemaDocs.Proofs.Json.Printable
import SchemaDocs.Proofs.Value.Expression
import SchemaDocs.Value.Literal
/-!
# Literals of plain values

A plain value has a literal, and no two code points of it would be joined: the literal of a map is
printable ASCII, and between the items of a list there is a comma.
-/

namespace SchemaDocs

open Text (PairFree SurrogateFree)

namespace Binary64

theorem surrogateFree_text (spelling : Spelling) (x : Binary64) :
    SurrogateFree (x.text spelling) := by
  cases x with
  | nan => exact Text.surrogateFree_ofString spelling.nan
  | infinite negative =>
      cases negative with
      | false => exact Text.surrogateFree_ofString spelling.infinity
      | true => exact (Text.surrogateFree_ofString "-").append (Text.surrogateFree_ofString _)
  | finite negative significand exponent =>
      have hreal := isReal_text (.finite negative significand exponent)
      have hplain := Json.isPlain_of_isReal hreal
      exact Json.surrogateFree_of_isPrintable fun c hc => Json.isPrintable_of_isPlain (hplain c hc)

end Binary64

namespace Value

theorem exists_literal_map {access : Access} {entries : List (Text × Value)}
    (hv : (Value.map access entries).Plain) :
    ∃ l, (Value.map access entries).literal = .ok l ∧ PairFree l := by
  obtain ⟨j, hj, hreadable, -⟩ := exists_toJson? _ hv
  refine ⟨j.text, ?_, ?_⟩
  · rw [literal, unlock_of_plain _ hv, hj]
    rfl
  · exact (Json.surrogateFree_text hreadable.realLiterals).pairFree

mutual

theorem exists_literal : ∀ v : Value, v.Plain → ∃ l, v.literal = .ok l ∧ PairFree l
  | .null, _ => ⟨_, rfl, (Text.surrogateFree_ofString "None").pairFree⟩
  | .bool true, _ => ⟨_, rfl, (Text.surrogateFree_ofString "true").pairFree⟩
  | .bool false, _ => ⟨_, rfl, (Text.surrogateFree_ofString "false").pairFree⟩
  | .int n, hv => ⟨_, if_pos hv, (Text.surrogateFree_ofInt n).pairFree⟩
  | .float x, _ => ⟨_, rfl, (Binary64.surrogateFree_text _ x).pairFree⟩
  | .text t, hv => ⟨t, rfl, hv⟩
  | .list _ items, hv => by
      obtain ⟨ls, hls, hpairs⟩ := exists_itemLiterals items hv.2
      have hjoin := Text.pairFree_join (Text.surrogateFree_ofString ", ") (by decide) hpairs
      have hopened := (Text.surrogateFree_ofString "[").append_pairFree hjoin
      exact ⟨_, by rw [literal, hls]; rfl,
        hopened.append_surrogateFree (Text.surrogateFree_ofString "]")⟩
  | .map _ _, hv => exists_literal_map hv

theorem exists_itemLiterals : ∀ items : List Value, PlainItems items →
    ∃ ls, itemLiterals items = .ok ls ∧ ∀ l ∈ ls, PairFree l
  | [], _ => ⟨[], rfl, fun l hl => absurd hl List.not_mem_nil⟩
  | v :: rest, hv => by
      obtain ⟨l, hl, hpair⟩ := exists_literal v hv.1
      obtain ⟨ls, hls, hpairs⟩ := exists_itemLiterals rest hv.2
      exact ⟨l :: ls, by rw [itemLiterals, hl, hls]; rfl, List.forall_mem_cons.mpr ⟨hpair, hpairs⟩⟩

end

end Value

end SchemaDocs
