import SchemaDocs.Proofs.Entries
import SchemaDocs.Proofs.Json.Number
import SchemaDocs.Proofs.Json.StringLiteral
/-!
# Reading back printed documents

The printed text of a document is read as the document, also if code points of the text were
rewritten, as long as only strings change and every code point in them is still spelled.

* `read_respelled`: the text of a readable document, rewritten so, is read as the document;
* `read_text`: so is the text itself.
-/

namespace SchemaDocs.Json

open Text (PairFree)

mutual

/-- Whether a document can be read back: its whole numbers are not too long, the literals of its
other numbers are such, no two of its code points would be joined, and its objects have distinct
names. -/
def Readable : Json → Prop
  | .null => True
  | .bool _ => True
  | .int n => (Text.ofNat n.natAbs).length ≤ maxDigits
  | .real literal => IsReal literal
  | .string t => PairFree t
  | .array items => ReadableItems items
  | .object members => (members.map Prod.fst).Nodup ∧ ReadableMembers members

def ReadableItems : List Json → Prop
  | [] => True
  | j :: rest => Readable j ∧ ReadableItems rest

def ReadableMembers : List (Text × Json) → Prop
  | [] => True
  | (key, j) :: rest => PairFree key ∧ Readable j ∧ ReadableMembers rest

end

/-! ## Rewriting code points -/

def isPlain (c : CodePoint) : Bool :=
  0x20 ≤ c.value && c.value ≤ 0x7E && c.value != 0x26 && c.value != 0x27 && c.value != 0x3C &&
    c.value != 0x3E

/-- A way to rewrite code points of a printed document that keeps the document. -/
structure Respelling (f : CodePoint → Text) : Prop where
  plain : ∀ c, isPlain c = true → f c = [c]
  spells : ∀ c, Spells c ((escaped c).flatMap f)

theorem respelling_singleton : Respelling fun c => [c] where
  plain _ _ := rfl
  spells c := by
    rw [List.flatMap_singleton']
    exact spells_escaped c

variable {f : CodePoint → Text}

theorem flatMap_of_isPlain (hplain : ∀ c, isPlain c = true → f c = [c]) {t : Text}
    (ht : ∀ c ∈ t, isPlain c = true) : t.flatMap f = t := by
  induction t with
  | nil => rfl
  | cons c rest ih =>
      obtain ⟨hc, hrest⟩ := List.forall_mem_cons.mp ht
      rw [List.flatMap_cons, hplain c hc, ih hrest, List.singleton_append]

theorem ne_of_isPlain {c d : CodePoint} (hc : isPlain c = true) (hd : isPlain d = false) :
    c ≠ d := by
  rintro rfl
  rw [hc] at hd
  cases hd

theorem isPlain_of_isDigit {c : CodePoint} (hc : c.isDigit = true) : isPlain c = true := by
  simp only [CodePoint.isDigit, isPlain, Bool.and_eq_true, decide_eq_true_eq, bne_iff_ne] at hc ⊢
  omega

theorem isPlain_ofInt (n : Int) : ∀ c ∈ Text.ofInt n, isPlain c = true := by
  have hdigits : ∀ m : Nat, ∀ c ∈ Text.ofNat m, isPlain c = true := fun m c hc =>
    isPlain_of_isDigit (Text.isDigit_of_mem_ofNat hc)
  cases n with
  | ofNat n => exact hdigits n
  | negSucc n => exact List.forall_mem_cons.mpr ⟨rfl, hdigits (n + 1)⟩

theorem isPlain_of_isReal {literal : Text} (h : IsReal literal) :
    ∀ c ∈ literal, isPlain c = true := by
  have hdigits : ∀ {ds : Text}, IsDigits ds → ∀ c ∈ ds, isPlain c = true := fun hds c hc =>
    isPlain_of_isDigit (hds.2 c hc)
  cases h with
  | nan => decide
  | infinity => decide
  | negInfinity => decide
  | number hsign hwhole hfraction hexponent _ =>
      simp only [List.forall_mem_append]
      refine ⟨?_, ?_, ?_, ?_⟩
      · rcases hsign with rfl | rfl <;> decide
      · rcases hwhole with rfl | ⟨hds, -⟩
        · decide
        · exact hdigits hds
      · rcases hfraction with rfl | ⟨ds, rfl, hds⟩
        · exact fun c hc => absurd hc List.not_mem_nil
        · exact List.forall_mem_cons.mpr ⟨rfl, hdigits hds⟩
      · rcases hexponent with rfl | ⟨sign, ds, rfl, hsign, hds⟩
        · exact fun c hc => absurd hc List.not_mem_nil
        · have hsign : isPlain sign = true := by rcases hsign with rfl | rfl <;> rfl
          have hrest : ∀ c ∈ sign :: ds, isPlain c = true :=
            List.forall_mem_cons.mpr ⟨hsign, hdigits hds⟩
          exact List.forall_mem_cons.mpr ⟨rfl, hrest⟩

theorem stringText_respelled (hf : Respelling f) (t rest : Text) :
    (stringText t).flatMap f ++ rest =
      CodePoint.ofChar '"' ::
        (t.flatMap (fun c => (escaped c).flatMap f) ++ CodePoint.ofChar '"' :: rest) := by
  have hquote : f (CodePoint.ofChar '"') = [CodePoint.ofChar '"'] := hf.plain _ rfl
  have hend : (Text.ofString "\"").flatMap f = [CodePoint.ofChar '"'] :=
    flatMap_of_isPlain hf.plain (by decide)
  rw [stringText, List.flatMap_cons, hquote, List.flatMap_append, hend, List.flatMap_assoc]
  simp

/-! ## Where values begin -/

/-- A text begins with a visible ASCII character that closes no array and no object. -/
def BeginsValue (t : Text) : Prop :=
  ∃ c rest, t = c :: rest ∧ 0x20 < c.value ∧ c.value < 0x7D ∧ c ≠ CodePoint.ofChar ']'

theorem BeginsValue.append {s : Text} (h : BeginsValue s) (t : Text) : BeginsValue (s ++ t) := by
  obtain ⟨c, rest, rfl, hc⟩ := h
  exact ⟨c, rest ++ t, rfl, hc⟩

theorem BeginsNumber.beginsValue {t : Text} (h : BeginsNumber t) : BeginsValue t := by
  obtain ⟨d, ds, hd, rfl | rfl⟩ := h
  · have hbracket := ne_ofChar_of_isDigit (c := ']') hd rfl
    simp only [CodePoint.isDigit, Bool.and_eq_true, decide_eq_true_eq] at hd
    exact ⟨d, ds, rfl, by omega, by omega, hbracket⟩
  · exact ⟨_, d :: ds, rfl, by decide, by decide, by decide⟩

theorem skipSpace_of_beginsValue {t : Text} (h : BeginsValue t) : skipSpace t = t := by
  obtain ⟨c, rest, rfl, hc, -⟩ := h
  rw [skipSpace, List.dropWhile_cons_of_neg]
  simp only [isSpace, Bool.or_eq_true, beq_iff_eq]
  omega

theorem beginsValue_ofInt (n : Int) : BeginsValue (Text.ofInt n) := by
  apply BeginsNumber.beginsValue
  cases n with
  | ofNat n => simpa [Text.ofInt] using beginsNumber_whole [] (.inl rfl) (isWhole_ofNat n)
  | negSucc n => simpa [Text.ofInt] using beginsNumber_whole [] (.inr rfl) (isWhole_ofNat (n + 1))

theorem beginsValue_isReal {literal : Text} (h : IsReal literal) : BeginsValue literal := by
  cases h with
  | nan => exact ⟨_, _, rfl, by decide, by decide, by decide⟩
  | infinity => exact ⟨_, _, rfl, by decide, by decide, by decide⟩
  | negInfinity => exact ⟨_, _, rfl, by decide, by decide, by decide⟩
  | number hsign hwhole _ _ _ => exact (beginsNumber_whole _ hsign hwhole).beginsValue

theorem beginsValue_stringText (hf : Respelling f) (t : Text) :
    BeginsValue ((stringText t).flatMap f) := by
  have hstring := stringText_respelled hf t []
  rw [List.append_nil] at hstring
  rw [hstring]
  exact ⟨_, _, rfl, by decide, by decide, by decide⟩

theorem beginsValue_text (hf : Respelling f) {j : Json} (hj : Readable j) :
    BeginsValue (j.text.flatMap f) := by
  cases j with
  | null =>
      rw [text, flatMap_of_isPlain hf.plain (by decide)]
      exact ⟨_, _, rfl, by decide, by decide, by decide⟩
  | bool b =>
      cases b with
      | false =>
          rw [text, flatMap_of_isPlain hf.plain (by decide)]
          exact ⟨_, _, rfl, by decide, by decide, by decide⟩
      | true =>
          rw [text, flatMap_of_isPlain hf.plain (by decide)]
          exact ⟨_, _, rfl, by decide, by decide, by decide⟩
  | int n =>
      rw [text, flatMap_of_isPlain hf.plain (isPlain_ofInt n)]
      exact beginsValue_ofInt n
  | real literal =>
      rw [text, flatMap_of_isPlain hf.plain (isPlain_of_isReal hj)]
      exact beginsValue_isReal hj
  | string t => exact beginsValue_stringText hf t
  | array items =>
      rw [text, List.flatMap_cons, hf.plain _ rfl]
      exact ⟨_, _, rfl, by decide, by decide, by decide⟩
  | object members =>
      rw [text, List.flatMap_cons, hf.plain _ rfl]
      exact ⟨_, _, rfl, by decide, by decide, by decide⟩

/-! ## Steps of the reader -/

theorem readValue_string (hf : Respelling f) {t : Text} (ht : PairFree t) (rest : Text)
    (fuel : Nat) :
    readValue (fuel + 1) ((stringText t).flatMap f ++ rest) = .ok (.string t, rest) := by
  rw [stringText_respelled hf, readValue, if_pos rfl, readString_spelled hf.spells ht]
  rfl

theorem readItems_last {fuel : Nat} {done : List Json} {part rest : Text} {j : Json}
    (hpart : readValue fuel (part ++ CodePoint.ofChar ']' :: rest) =
      .ok (j, CodePoint.ofChar ']' :: rest)) :
    readItems (fuel + 1) done (part ++ CodePoint.ofChar ']' :: rest) =
      .ok (.array (done.reverse ++ [j]), rest) := by
  rw [readItems, hpart, ← List.reverse_cons]
  rfl

theorem readItems_more {fuel : Nat} {done : List Json} {part next : Text} {j : Json}
    (hpart : readValue fuel (part ++ (Text.ofString ", " ++ next)) =
      .ok (j, Text.ofString ", " ++ next)) (hnext : BeginsValue next) :
    readItems (fuel + 1) done (part ++ (Text.ofString ", " ++ next)) =
      readItems fuel (j :: done) next := by
  have hspace : skipSpace (CodePoint.ofChar ' ' :: next) = next := skipSpace_of_beginsValue hnext
  rw [readItems, hpart]
  exact congrArg (readItems fuel (j :: done)) hspace

theorem readValue_array {part rest : Text} (hpart : BeginsValue part) (fuel : Nat) :
    readValue (fuel + 1) (CodePoint.ofChar '[' :: (part ++ CodePoint.ofChar ']' :: rest)) =
      readItems fuel [] (part ++ CodePoint.ofChar ']' :: rest) := by
  have hspace := skipSpace_of_beginsValue (hpart.append (CodePoint.ofChar ']' :: rest))
  obtain ⟨c, more, rfl, -, -, hc⟩ := hpart
  rw [readValue, if_neg (by decide), if_pos rfl, hspace]
  simp only [List.cons_append, if_neg hc]

theorem readValue_object {part rest : Text} (hpart : BeginsValue part) (fuel : Nat) :
    readValue (fuel + 1) (CodePoint.ofChar '\x7b' :: (part ++ CodePoint.ofChar '\x7d' :: rest)) =
      readMembers fuel [] (part ++ CodePoint.ofChar '\x7d' :: rest) := by
  have hspace := skipSpace_of_beginsValue (hpart.append (CodePoint.ofChar '\x7d' :: rest))
  obtain ⟨c, more, rfl, -, hlt, -⟩ := hpart
  have hc : c ≠ CodePoint.ofChar '\x7d' := by
    rintro rfl
    exact absurd hlt (by decide)
  rw [readValue, if_neg (by decide), if_neg (by decide), if_pos rfl, hspace]
  simp only [List.cons_append, if_neg hc]

def memberStart (f : CodePoint → Text) (key : Text) : Text :=
  (stringText key).flatMap f ++ Text.ofString ": "

def afterMember (fuel : Nat) (done : List (Text × Json)) (key : Text) (j : Json) (after : Text) :
    Except Halt (Json × Text) :=
  match skipSpace after with
  | [] => .error (.malformed .noComma 0)
  | c :: rest =>
    if c = CodePoint.ofChar '\x7d' then
      .ok (.object (entriesOfPairs ((key, j) :: done).reverse), rest)
    else if c = CodePoint.ofChar ',' then readMembers fuel ((key, j) :: done) (skipSpace rest)
    else .error (.malformed .noComma (rest.length + 1))

theorem readMembers_start (hf : Respelling f) {key t : Text} (hkey : PairFree key)
    (ht : BeginsValue t) (fuel : Nat) (done : List (Text × Json)) :
    readMembers (fuel + 1) done (memberStart f key ++ t) =
      (readValue fuel t).bind fun (j, after) => afterMember fuel done key j after := by
  have hspace : skipSpace (CodePoint.ofChar ' ' :: t) = t := skipSpace_of_beginsValue ht
  have hcolon : skipSpace (Text.ofString ": " ++ t) =
      CodePoint.ofChar ':' :: CodePoint.ofChar ' ' :: t := rfl
  rw [memberStart, List.append_assoc, stringText_respelled hf, readMembers, if_pos rfl,
    readString_spelled hf.spells hkey]
  simp only [bind, Except.bind, List.reverse_nil, List.nil_append, hcolon, if_true, hspace]
  rfl

theorem readMembers_last (hf : Respelling f) {fuel : Nat} {done : List (Text × Json)}
    {key part rest : Text} {j : Json} (hkey : PairFree key) (hbegins : BeginsValue part)
    (hpart : readValue fuel (part ++ CodePoint.ofChar '\x7d' :: rest) =
      .ok (j, CodePoint.ofChar '\x7d' :: rest)) :
    readMembers (fuel + 1) done (memberStart f key ++ (part ++ CodePoint.ofChar '\x7d' :: rest)) =
      .ok (.object (entriesOfPairs (done.reverse ++ [(key, j)])), rest) := by
  rw [readMembers_start hf hkey (hbegins.append _), hpart, ← List.reverse_cons]
  rfl

theorem readMembers_more (hf : Respelling f) {fuel : Nat} {done : List (Text × Json)}
    {key part next : Text} {j : Json} (hkey : PairFree key) (hbegins : BeginsValue part)
    (hpart : readValue fuel (part ++ (Text.ofString ", " ++ next)) =
      .ok (j, Text.ofString ", " ++ next)) (hnext : BeginsValue next) :
    readMembers (fuel + 1) done (memberStart f key ++ (part ++ (Text.ofString ", " ++ next))) =
      readMembers fuel ((key, j) :: done) next := by
  have hspace : skipSpace (CodePoint.ofChar ' ' :: next) = next := skipSpace_of_beginsValue hnext
  rw [readMembers_start hf hkey (hbegins.append _), hpart]
  exact congrArg (readMembers fuel ((key, j) :: done)) hspace

/-! ## Documents -/

theorem endsNumber_bracket (rest : Text) : EndsNumber (CodePoint.ofChar ']' :: rest) := by
  intro c hc
  cases hc
  exact .inr (.inl rfl)

theorem endsNumber_brace (rest : Text) : EndsNumber (CodePoint.ofChar '\x7d' :: rest) := by
  intro c hc
  cases hc
  exact .inr (.inr rfl)

theorem endsNumber_comma (rest : Text) : EndsNumber (Text.ofString ", " ++ rest) := by
  intro c hc
  cases hc
  exact .inl rfl

theorem beginsValue_itemsText (hf : Respelling f) {j : Json} {items : List Json}
    (hj : Readable j) : BeginsValue ((itemsText (j :: items)).flatMap f) := by
  cases items with
  | nil => exact beginsValue_text hf hj
  | cons k items =>
      rw [itemsText, List.append_assoc, List.flatMap_append]
      exact (beginsValue_text hf hj).append _

theorem beginsValue_membersText (hf : Respelling f) (m : Text × Json)
    (members : List (Text × Json)) : BeginsValue ((membersText (m :: members)).flatMap f) := by
  obtain ⟨key, j⟩ := m
  cases members with
  | nil =>
      rw [membersText, List.append_assoc, List.flatMap_append]
      exact (beginsValue_stringText hf key).append _
  | cons m members =>
      rw [membersText, List.append_assoc, List.append_assoc, List.append_assoc,
        List.flatMap_append]
      exact (beginsValue_stringText hf key).append _

theorem arrayText_respelled (hf : Respelling f) (items : List Json) (rest : Text) :
    (text (.array items)).flatMap f ++ rest =
      CodePoint.ofChar '[' :: ((itemsText items).flatMap f ++ CodePoint.ofChar ']' :: rest) := by
  have hclose : (Text.ofString "]").flatMap f = [CodePoint.ofChar ']'] :=
    flatMap_of_isPlain hf.plain (by decide)
  rw [text, List.flatMap_cons, hf.plain _ rfl, List.flatMap_append, hclose]
  simp

theorem objectText_respelled (hf : Respelling f) (members : List (Text × Json)) (rest : Text) :
    (text (.object members)).flatMap f ++ rest =
      CodePoint.ofChar '\x7b' ::
        ((membersText members).flatMap f ++ CodePoint.ofChar '\x7d' :: rest) := by
  have hclose : (Text.ofString "\x7d").flatMap f = [CodePoint.ofChar '\x7d'] :=
    flatMap_of_isPlain hf.plain (by decide)
  rw [text, List.flatMap_cons, hf.plain _ rfl, List.flatMap_append, hclose]
  simp

theorem itemsText_respelled_cons (hf : Respelling f) (j k : Json) (items : List Json) :
    (itemsText (j :: k :: items)).flatMap f =
      j.text.flatMap f ++ (Text.ofString ", " ++ (itemsText (k :: items)).flatMap f) := by
  have hcomma : (Text.ofString ", ").flatMap f = Text.ofString ", " :=
    flatMap_of_isPlain hf.plain (by decide)
  rw [itemsText, List.flatMap_append, List.flatMap_append, hcomma, List.append_assoc]

theorem memberText_respelled (hf : Respelling f) (key : Text) (j : Json) :
    (stringText key ++ ": " ++ j.text).flatMap f = memberStart f key ++ j.text.flatMap f := by
  have hcolon : (Text.ofString ": ").flatMap f = Text.ofString ": " :=
    flatMap_of_isPlain hf.plain (by decide)
  rw [List.flatMap_append, List.flatMap_append, hcolon, memberStart]

theorem membersText_respelled_cons (hf : Respelling f) (key : Text) (j : Json) (m : Text × Json)
    (members : List (Text × Json)) :
    (membersText ((key, j) :: m :: members)).flatMap f =
      memberStart f key ++
        (j.text.flatMap f ++ (Text.ofString ", " ++ (membersText (m :: members)).flatMap f)) := by
  have hcomma : (Text.ofString ", ").flatMap f = Text.ofString ", " :=
    flatMap_of_isPlain hf.plain (by decide)
  rw [membersText, List.flatMap_append, List.flatMap_append, hcomma, memberText_respelled hf,
    List.append_assoc, List.append_assoc]

mutual

/-- Fuel for two calls a code point is enough: a call takes an item that has one at least, and the
items of an array stand behind its bracket. -/
theorem readValue_respelled (hf : Respelling f) : ∀ (j : Json), Readable j →
    ∀ (fuel : Nat) (rest : Text), 2 * (j.text.flatMap f).length < fuel → EndsNumber rest →
      readValue fuel (j.text.flatMap f ++ rest) = .ok (j, rest)
  | _, _, 0, _, hfuel, _ => absurd hfuel (Nat.not_lt_zero _)
  | .null, _, fuel + 1, rest, _, _ => by
      rw [text, flatMap_of_isPlain hf.plain (by decide)]
      exact readValue_null rest fuel
  | .bool b, _, fuel + 1, rest, _, _ => by
      have hword := readValue_bool b rest fuel
      cases b with
      | false => rwa [text, flatMap_of_isPlain hf.plain (by decide)]
      | true => rwa [text, flatMap_of_isPlain hf.plain (by decide)]
  | .int n, hj, fuel + 1, rest, _, hrest => by
      rw [text, flatMap_of_isPlain hf.plain (isPlain_ofInt n)]
      exact readValue_int hj hrest fuel
  | .real literal, hj, fuel + 1, rest, _, hrest => by
      rw [text, flatMap_of_isPlain hf.plain (isPlain_of_isReal hj)]
      exact readValue_real hj hrest fuel
  | .string t, hj, fuel + 1, rest, _, _ => readValue_string hf hj rest fuel
  | .array [], _, fuel + 1, rest, _, _ => by
      rw [text, itemsText, flatMap_of_isPlain hf.plain (by decide)]
      rfl
  | .array (j :: items), hj, fuel + 1, rest, hfuel, _ => by
      have hlength := congrArg List.length (arrayText_respelled hf (j :: items) [])
      simp only [List.append_nil, List.length_cons, List.length_append, List.length_nil] at hlength
      rw [arrayText_respelled hf, readValue_array (beginsValue_itemsText hf hj.1)]
      exact readItems_respelled hf (j :: items) (by simp) hj fuel [] rest (by omega)
  | .object [], _, fuel + 1, rest, _, _ => by
      rw [text, membersText, flatMap_of_isPlain hf.plain (by decide)]
      rfl
  | .object (m :: members), hj, fuel + 1, rest, hfuel, _ => by
      have hlength := congrArg List.length (objectText_respelled hf (m :: members) [])
      simp only [List.append_nil, List.length_cons, List.length_append, List.length_nil] at hlength
      have hread := readMembers_respelled hf (m :: members) (by simp) hj.2 fuel [] rest (by omega)
      -- The names are distinct, so no member takes the place of another one.
      rw [objectText_respelled hf, readValue_object (beginsValue_membersText hf m members), hread,
        List.reverse_nil, List.nil_append, entriesOfPairs_of_nodup hj.1]

theorem readItems_respelled (hf : Respelling f) : ∀ (items : List Json), items ≠ [] →
    ReadableItems items → ∀ (fuel : Nat) (done : List Json) (rest : Text),
      2 * ((itemsText items).flatMap f).length + 1 < fuel →
      readItems fuel done ((itemsText items).flatMap f ++ CodePoint.ofChar ']' :: rest) =
        .ok (.array (done.reverse ++ items), rest)
  | [], hne, _, _, _, _, _ => absurd rfl hne
  | _ :: _, _, _, 0, _, _, hfuel => absurd hfuel (Nat.not_lt_zero _)
  | [j], _, hj, fuel + 1, done, rest, hfuel => by
      rw [itemsText] at hfuel ⊢
      exact readItems_last (readValue_respelled hf j hj.1 fuel _ (by omega)
        (endsNumber_bracket rest))
  | j :: k :: items, _, hj, fuel + 1, done, rest, hfuel => by
      rw [itemsText_respelled_cons hf] at hfuel ⊢
      simp only [List.length_append] at hfuel
      have hlength : (Text.ofString ", ").length = 2 := rfl
      have hrest := readItems_respelled hf (k :: items) (by simp) hj.2 fuel (j :: done) rest
        (by omega)
      rw [List.append_assoc, List.append_assoc, readItems_more
        (readValue_respelled hf j hj.1 fuel _ (by omega) (endsNumber_comma _))
        ((beginsValue_itemsText hf hj.2.1).append _), hrest]
      simp

theorem readMembers_respelled (hf : Respelling f) : ∀ (members : List (Text × Json)),
    members ≠ [] → ReadableMembers members →
    ∀ (fuel : Nat) (done : List (Text × Json)) (rest : Text),
      2 * ((membersText members).flatMap f).length + 1 < fuel →
      readMembers fuel done ((membersText members).flatMap f ++ CodePoint.ofChar '\x7d' :: rest) =
        .ok (.object (entriesOfPairs (done.reverse ++ members)), rest)
  | [], hne, _, _, _, _, _ => absurd rfl hne
  | _ :: _, _, _, 0, _, _, hfuel => absurd hfuel (Nat.not_lt_zero _)
  | [(key, j)], _, hj, fuel + 1, done, rest, hfuel => by
      rw [membersText, memberText_respelled hf] at hfuel ⊢
      rw [List.length_append] at hfuel
      rw [List.append_assoc]
      exact readMembers_last hf hj.1 (beginsValue_text hf hj.2.1)
        (readValue_respelled hf j hj.2.1 fuel _ (by omega) (endsNumber_brace rest))
  | (key, j) :: m :: members, _, hj, fuel + 1, done, rest, hfuel => by
      rw [membersText_respelled_cons hf] at hfuel ⊢
      simp only [List.length_append] at hfuel
      have hlength : (Text.ofString ", ").length = 2 := rfl
      have hrest := readMembers_respelled hf (m :: members) (by simp) hj.2.2 fuel
        ((key, j) :: done) rest (by omega)
      rw [List.append_assoc, List.append_assoc, List.append_assoc, readMembers_more hf hj.1
        (beginsValue_text hf hj.2.1)
        (readValue_respelled hf j hj.2.1 fuel _ (by omega) (endsNumber_comma _))
        ((beginsValue_membersText hf m members).append _), hrest]
      simp

end

theorem read_respelled (hf : Respelling f) {j : Json} (hj : Readable j) :
    read (j.text.flatMap f) = .ok j := by
  have hbegins := beginsValue_text hf hj
  have hvalue := readValue_respelled hf j hj (2 * (j.text.flatMap f).length + 2) [] (by omega)
    (fun c hc => absurd hc (by simp))
  have hspace := skipSpace_of_beginsValue hbegins
  obtain ⟨c, rest, htext, -, hc, -⟩ := hbegins
  have hmark : c.value ≠ 0xFEFF := by omega
  rw [List.append_nil] at hvalue
  have hwhole : readWhole (j.text.flatMap f) = .ok j := by
    unfold readWhole
    rw [hspace, hvalue, htext]
    simp only [if_neg hmark]
    rfl
  rw [read, hwhole]

theorem read_text {j : Json} (hj : Readable j) : read j.text = .ok j := by
  have hread := read_respelled respelling_singleton hj
  rwa [List.flatMap_singleton'] at hread

end SchemaDocs.Json
