import SchemaDocs.Proofs.Html.Layout
import SchemaDocs.Proofs.Text.Split
import SchemaDocs.Text.Blank
/-!
# Tags and their attributes

The attributes of a page are read off its text alone: a tag is what stands behind an opening angle
bracket up to the next closing one, and the double quotes in it enclose the values of its
attributes, each behind its name.  Shown text holds neither brackets nor double quotes, so it can
stand for a value or for a part of one, and it neither begins nor ends anything.

* `valuesOf`: the values that an attribute has on a page;
* `Adds`: what a part of a page adds to the attributes of interest, whatever follows it;
* `adds_slot`: a tag with a text in one of its values.
-/

namespace SchemaDocs.Html

open Fragment (markup shown script)

/-! ## Reading attributes -/

/-- What stands behind each opening angle bracket up to the next closing one. -/
def tags : Text → List Text
  | [] => []
  | c :: rest =>
    if c = '<' then (rest.takeWhile fun d => d != '>') :: tags rest else tags rest

def lastWord (t : Text) : Text :=
  (t.reverse.takeWhile fun c => !c.isBlank).reverse

/-- Names with their values, for parts of a tag of which every second one is a value. -/
def attributePairs : List Text → List (Text × Text)
  | before :: value :: rest => (lastWord before, value) :: attributePairs rest
  | _ => []

/-- The attributes of a tag; names have the equals sign with them. -/
def tagAttributes (tag : Text) : List (Text × Text) :=
  attributePairs (tag.split '"')

def valuesIn (name : Text) (attributes : List (Text × Text)) : List Text :=
  (attributes.filter fun a => a.1 = name ++ "=").map fun a => unescaped a.2

def valuesOf (name t : Text) : List Text :=
  valuesIn name ((tags t).flatMap tagAttributes)

/-! ## Identifiers and links -/

def isMark (a : Text × Text) : Bool :=
  a.1 = "id=" || a.1 = "href="

def marks (t : Text) : List (Text × Text) :=
  ((tags t).flatMap tagAttributes).filter isMark

theorem valuesIn_append (name : Text) (as bs : List (Text × Text)) :
    valuesIn name (as ++ bs) = valuesIn name as ++ valuesIn name bs := by
  rw [valuesIn, List.filter_append, List.map_append]
  rfl

theorem valuesIn_flatMap {α : Type} (name : Text) (f : α → List (Text × Text)) (xs : List α) :
    valuesIn name (xs.flatMap f) = xs.flatMap fun x => valuesIn name (f x) := by
  rw [valuesIn, List.filter_flatMap, List.map_flatMap]
  rfl

theorem valuesOf_eq {name : Text} (hname : ∀ v, isMark (name ++ "=", v) = true) (t : Text) :
    valuesOf name t = valuesIn name (marks t) := by
  rw [valuesOf, valuesIn, valuesIn, marks, List.filter_filter]
  congr 1
  refine List.filter_congr fun a _ => ?_
  obtain ⟨key, v⟩ := a
  by_cases hkey : key = name ++ "="
  · rw [hkey, hname]
    simp
  · simp [hkey]

/-- Whether a text adds given marks to those of any text after it. -/
def Adds (t : Text) (ms : List (Text × Text)) : Prop :=
  ∀ rest, marks (t ++ rest) = ms ++ marks rest

theorem marks_of_adds {t : Text} {ms : List (Text × Text)} (h : Adds t ms) : marks t = ms := by
  have hnil := h []
  rwa [List.append_nil, show marks [] = [] from rfl, List.append_nil] at hnil

theorem adds_nil : Adds [] [] :=
  fun _ => rfl

theorem Adds.append {s t : Text} {ms ns : List (Text × Text)} (hs : Adds s ms) (ht : Adds t ns) :
    Adds (s ++ t) (ms ++ ns) := by
  intro rest
  rw [List.append_assoc, hs, ht, List.append_assoc]

/-! ## Texts with closed tags -/

/-- Whether every opening angle bracket of a text has a closing one behind it. -/
def closed : Text → Bool
  | [] => true
  | c :: rest => (c != '<' || rest.contains (CodePoint.ofChar '>')) && closed rest

theorem takeWhile_append_of_mem {α : Type} {p : α → Bool} {a : α} {xs : List α} (ha : a ∈ xs)
    (hp : p a = false) (ys : List α) : (xs ++ ys).takeWhile p = xs.takeWhile p := by
  induction xs with
  | nil => exact absurd ha List.not_mem_nil
  | cons x xs ih =>
      rw [List.cons_append, List.takeWhile_cons, List.takeWhile_cons]
      cases hx : p x with
      | false => rfl
      | true =>
          rcases List.mem_cons.mp ha with rfl | hmem
          · rw [hp] at hx
            cases hx
          · rw [ih hmem]

theorem tags_append_of_closed {s : Text} (hs : closed s) (t : Text) :
    tags (s ++ t) = tags s ++ tags t := by
  induction s with
  | nil => rfl
  | cons c s ih =>
      rw [closed, Bool.and_eq_true, Bool.or_eq_true] at hs
      rw [List.cons_append, tags, tags]
      split
      · next hc =>
          have hmem : CodePoint.ofChar '>' ∈ s := by
            simpa [hc] using hs.1
          rw [takeWhile_append_of_mem hmem (by simp), ih hs.2, List.cons_append]
      · exact ih hs.2

def isNeutral (t : Text) : Bool :=
  closed t && (marks t).isEmpty

theorem adds_of_isNeutral {t : Text} (h : isNeutral t) : Adds t [] := by
  rw [isNeutral, Bool.and_eq_true, List.isEmpty_iff] at h
  intro rest
  rw [marks, tags_append_of_closed h.1, List.flatMap_append, List.filter_append]
  exact congrArg (· ++ marks rest) h.2

theorem tags_of_notMem {t : Text} (ht : CodePoint.ofChar '<' ∉ t) (rest : Text) :
    tags (t ++ rest) = tags rest := by
  induction t with
  | nil => rfl
  | cons c t ih =>
      rw [List.mem_cons, not_or] at ht
      rw [List.cons_append, tags, if_neg (Ne.symm ht.1), ih ht.2]

theorem adds_of_notMem {t : Text} (ht : CodePoint.ofChar '<' ∉ t) : Adds t [] := by
  intro rest
  rw [marks, tags_of_notMem ht]
  rfl

/-! ## A single tag -/

/-- Whether a text is inside a tag whatever stands around it. -/
def isInner (t : Text) : Bool :=
  t.all fun c => c != '<' && c != '>'

theorem notMem_of_isInner {t : Text} (h : isInner t) :
    CodePoint.ofChar '<' ∉ t ∧ CodePoint.ofChar '>' ∉ t := by
  have hinner : ∀ c ∈ t, c ≠ CodePoint.ofChar '<' ∧ c ≠ CodePoint.ofChar '>' := by
    simpa [isInner] using h
  exact ⟨fun hmem => (hinner _ hmem).1 rfl, fun hmem => (hinner _ hmem).2 rfl⟩

theorem isInner_append {s t : Text} (hs : isInner s) (ht : isInner t) : isInner (s ++ t) := by
  rw [isInner, List.all_append, Bool.and_eq_true]
  exact ⟨hs, ht⟩

theorem isInner_quote {t : Text} (ht : isInner t) : isInner (CodePoint.ofChar '"' :: t) :=
  isInner_append (s := [CodePoint.ofChar '"']) (by decide) ht

theorem adds_tag {tag : Text} (htag : isInner tag) :
    Adds (CodePoint.ofChar '<' :: (tag ++ [CodePoint.ofChar '>']))
      ((tagAttributes tag).filter isMark) := by
  obtain ⟨hopen, hclose⟩ := notMem_of_isInner htag
  intro rest
  have hpositive : ∀ c ∈ tag, (c != CodePoint.ofChar '>') = true := by
    intro c hc
    rw [bne_iff_ne]
    exact fun heq => hclose (heq ▸ hc)
  rw [marks, List.cons_append, List.append_assoc, tags, if_pos rfl,
    List.takeWhile_append_of_pos hpositive, tags_of_notMem hopen, List.singleton_append,
    List.takeWhile_cons_of_neg (by simp), List.append_nil, List.flatMap_cons, List.filter_append]
  rfl

theorem tagAttributes_slot {v : Text} (front value back : Text)
    (hvalue : CodePoint.ofChar '"' ∉ value) (hv : CodePoint.ofChar '"' ∉ v) :
    tagAttributes (front ++ CodePoint.ofChar '"' :: (value ++ (v ++ CodePoint.ofChar '"' :: back))) =
      attributePairs (front.split '"' ++ (value ++ v) :: back.split '"') := by
  have hwhole : CodePoint.ofChar '"' ∉ value ++ v := by
    rw [List.mem_append, not_or]
    exact ⟨hvalue, hv⟩
  rw [tagAttributes, Text.split_append_cons, ← List.append_assoc, Text.split_append_cons,
    Text.split_of_notMem hwhole]
  rfl

/-! ## Fragments -/

section Fragments

variable {fs gs : List Fragment} {ms ns : List (Text × Text)}

theorem adds_pageText_append (hfs : Adds (pageText fs) ms) (hgs : Adds (pageText gs) ns) :
    Adds (pageText (fs ++ gs)) (ms ++ ns) := by
  rw [pageText_append]
  exact hfs.append hgs

theorem adds_flatMap {α : Type} {f : α → List Fragment} {g : α → List (Text × Text)}
    (h : ∀ x, Adds (pageText (f x)) (g x)) (xs : List α) :
    Adds (pageText (xs.flatMap f)) (xs.flatMap g) := by
  induction xs with
  | nil => exact adds_nil
  | cons x xs ih =>
      rw [List.flatMap_cons, List.flatMap_cons]
      exact adds_pageText_append (h x) ih

theorem adds_neutral {t : Text} (ht : isNeutral t) (hfs : Adds (pageText fs) ms) :
    Adds (pageText (markup t :: fs)) ms := by
  rw [pageText_cons]
  exact (adds_of_isNeutral ht).append hfs

/-- Fixed markup without marks.  Its characters are listed by reflexivity. -/
theorem adds_markup {s : String} {cs : List Char} (hs : s = String.ofList cs)
    (h : isNeutral (cs.map CodePoint.ofChar)) (hfs : Adds (pageText fs) ms) :
    Adds (pageText (markup (Text.ofString s) :: fs)) ms := by
  refine adds_neutral ?_ hfs
  rw [hs, Text.ofString, String.toList_ofList]
  exact h

theorem adds_shown (t : Text) (hfs : Adds (pageText fs) ms) :
    Adds (pageText (shown t :: fs)) ms := by
  rw [pageText_cons]
  exact (adds_of_notMem (lt_notMem_escaped t)).append hfs

/-- Whether markup around a text puts it into a value of a tag: before the tag there are no marks,
and what the tag has before and behind the text neither ends the tag nor the value. -/
def isSlot (before front value back : Text) : Bool :=
  isNeutral before && isInner front && (isInner value && CodePoint.ofChar '"' ∉ value) &&
    isInner back

theorem isInner_of_isShown {t : Text} (ht : ∀ c ∈ t, isShown c = true) : isInner t := by
  rw [isInner, List.all_eq_true]
  intro c hc
  have hshown := ht c hc
  simp only [isShown, Bool.and_eq_true] at hshown ⊢
  exact hshown.1.1

theorem quote_notMem_of_isShown {t : Text} (ht : ∀ c ∈ t, isShown c = true) :
    CodePoint.ofChar '"' ∉ t :=
  fun hmem => absurd (ht _ hmem) (by decide)

theorem adds_slot {start stop : Text} {f : Fragment} (before front value back after : Text)
    (hslot : isSlot before front value back)
    (hstart : start = before ++ CodePoint.ofChar '<' :: (front ++ CodePoint.ofChar '"' :: value))
    (hstop : stop = CodePoint.ofChar '"' :: (back ++ CodePoint.ofChar '>' :: after))
    (hf : ∀ c ∈ f.text, isShown c = true)
    (hms : (attributePairs (front.split '"' ++ (value ++ f.text) :: back.split '"')).filter isMark =
      ms)
    (hfs : Adds (pageText (markup after :: fs)) ns) :
    Adds (pageText (markup start :: f :: markup stop :: fs)) (ms ++ ns) := by
  simp only [isSlot, Bool.and_eq_true, decide_eq_true_eq] at hslot
  obtain ⟨⟨⟨hbefore, hfront⟩, hvalue, hquote⟩, hback⟩ := hslot
  have htag : isInner (front ++ CodePoint.ofChar '"' ::
      (value ++ (f.text ++ CodePoint.ofChar '"' :: back))) :=
    isInner_append hfront <| isInner_quote <| isInner_append hvalue <|
      isInner_append (isInner_of_isShown hf) <| isInner_quote hback
  have hadds := adds_tag htag
  rw [tagAttributes_slot front value back hquote (quote_notMem_of_isShown hf), hms] at hadds
  have hall := (adds_of_isNeutral hbefore).append (hadds.append hfs)
  simpa only [pageText_cons, Fragment.text, hstart, hstop, List.append_assoc, List.cons_append,
    List.nil_append] using hall

end Fragments

end SchemaDocs.Html
