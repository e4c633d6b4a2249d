import SchemaDocs.Proofs.Schema.SameContent
import SchemaDocs.Proofs.Text.Occurrence
/-!
# The conditions on a raw schema

What a raw value has to satisfy to be a list of models is a list of conditions in document order:
models one after the other, and within a model first its own conditions and then those of each of
its fields.  A value that satisfies all of them is read, and any other one is rejected with the error
of the first condition that it violates.

Each condition is about a subject, which is the whole or a model or field at a position.  A message
names the subject of its condition, but for the one about missing fields: that one names the model
by the name it has and leaves its position open.

* `Conditions.Checks`: a reader that reports the first violated condition;
* `Model.checks_listOfValue`: the conditions on a raw schema are what its reader checks.
-/

namespace SchemaDocs

/-- A condition on a raw value: what has to hold, what that is about, and how its violation is
reported. -/
structure Condition where
  holds : Prop
  subject : Text
  error : ShapeError

/-! ## The first violated condition -/

namespace Conditions

def Reports (conditions : List Condition) (e : ShapeError) : Prop :=
  ∃ before c after, conditions = before ++ c :: after ∧ (∀ b ∈ before, b.holds) ∧ ¬ c.holds ∧
    c.error = e

/-- Whether a result is an error exactly if a condition is violated, and then that of the first. -/
def Checks {α : Type} (conditions : List Condition) (result : Except ShapeError α) : Prop :=
  ∀ e, result = .error e ↔ Reports conditions e

theorem not_reports_of_forall {conditions : List Condition} (h : ∀ c ∈ conditions, c.holds)
    (e : ShapeError) : ¬ Reports conditions e := by
  rintro ⟨before, c, after, rfl, -, hc, -⟩
  exact hc (h c (List.mem_append_right _ List.mem_cons_self))

theorem reports_cons_iff {c : Condition} {conditions : List Condition} {e : ShapeError} :
    Reports (c :: conditions) e ↔ ¬ c.holds ∧ c.error = e ∨ c.holds ∧ Reports conditions e := by
  constructor
  · rintro ⟨before, d, after, hsplit, hbefore, hd, he⟩
    rcases List.cons_eq_append_iff.mp hsplit with ⟨rfl, hcons⟩ | ⟨rest, rfl, rfl⟩
    · obtain ⟨rfl, -⟩ := List.cons.inj hcons
      exact .inl ⟨hd, he⟩
    · rw [List.forall_mem_cons] at hbefore
      exact .inr ⟨hbefore.1, rest, d, after, rfl, hbefore.2, hd, he⟩
  · rintro (⟨hc, he⟩ | ⟨hc, before, d, after, rfl, hbefore, hd, he⟩)
    · exact ⟨[], c, conditions, rfl, List.forall_mem_nil _, hc, he⟩
    · exact ⟨c :: before, d, after, rfl, List.forall_mem_cons.mpr ⟨hc, hbefore⟩, hd, he⟩

theorem reports_append_iff {first second : List Condition} {e : ShapeError} :
    Reports (first ++ second) e ↔
      Reports first e ∨ (∀ c ∈ first, c.holds) ∧ Reports second e := by
  induction first with
  | nil =>
      have hnone := not_reports_of_forall (List.forall_mem_nil Condition.holds) e
      simp [hnone]
  | cons c first ih =>
      rw [List.cons_append, reports_cons_iff, reports_cons_iff, ih, List.forall_mem_cons]
      tauto

theorem exists_reports {conditions : List Condition} (h : ¬ ∀ c ∈ conditions, c.holds) :
    ∃ e, Reports conditions e := by
  induction conditions with
  | nil => exact absurd (List.forall_mem_nil _) h
  | cons c conditions ih =>
      rw [List.forall_mem_cons, not_and] at h
      by_cases hc : c.holds
      · obtain ⟨e, he⟩ := ih (h hc)
        exact ⟨e, reports_cons_iff.mpr (.inr ⟨hc, he⟩)⟩
      · exact ⟨c.error, reports_cons_iff.mpr (.inl ⟨hc, rfl⟩)⟩

namespace Checks

variable {α β : Type} {conditions : List Condition} {result : Except ShapeError α}

theorem exists_ok_iff (h : Checks conditions result) :
    (∃ a, result = .ok a) ↔ ∀ c ∈ conditions, c.holds := by
  constructor
  · rintro ⟨a, rfl⟩
    by_contra hnot
    obtain ⟨e, he⟩ := exists_reports hnot
    cases (h e).mpr he
  · intro hall
    cases result with
    | ok a => exact ⟨a, rfl⟩
    | error e => exact absurd ((h e).mp rfl) (not_reports_of_forall hall e)

theorem nil (a : α) : Checks [] (.ok a) := fun e =>
  iff_of_false (by rintro ⟨⟩) (not_reports_of_forall (List.forall_mem_nil _) e)

theorem violated {c : Condition} (hc : ¬ c.holds) :
    Checks (c :: conditions) (.error c.error : Except ShapeError α) := by
  intro e
  rw [reports_cons_iff, Except.error.injEq]
  tauto

theorem cons {c : Condition} (hc : c.holds) (h : Checks conditions result) :
    Checks (c :: conditions) result := by
  intro e
  rw [reports_cons_iff, h e]
  tauto

theorem map (h : Checks conditions result) (f : α → β) : Checks conditions (result.map f) := by
  intro e
  rw [Results.map_eq_error, h e]

theorem append {rest : List Condition} {results : Except ShapeError (List α)}
    (h : Checks conditions result) (hrest : Checks rest results) :
    Checks (conditions ++ rest) (do let a ← result; let as ← results; return a :: as) := by
  intro e
  rw [Results.bind_eq_error, reports_append_iff, h e, ← h.exists_ok_iff]
  have hlater : ∀ a, (do let as ← results; return a :: as) = .error e ↔ Reports rest e := by
    intro a
    rw [Results.bind_eq_error, hrest e]
    simp [pure, Except.pure]
  simp only [hlater, exists_and_right]

end Checks

/-! ## The conditions on several values -/

variable {conditions : Nat → Value → List Condition}

/-- The conditions on raw values one after the other, of which the first has a given position. -/
def inTurn (conditions : Nat → Value → List Condition) (index : Nat) (raws : List Value) :
    List Condition :=
  (raws.zipIdx index).flatMap fun (raw, i) => conditions i raw

theorem inTurn_cons (index : Nat) (raw : Value) (rest : List Value) :
    inTurn conditions index (raw :: rest) =
      conditions index raw ++ inTurn conditions (index + 1) rest := rfl

theorem forall_holds_inTurn_iff {P : Value → Prop}
    (h : ∀ i raw, (∀ c ∈ conditions i raw, c.holds) ↔ P raw) {index : Nat} {raws : List Value} :
    (∀ c ∈ inTurn conditions index raws, c.holds) ↔ ∀ raw ∈ raws, P raw := by
  induction raws generalizing index with
  | nil => simp [inTurn]
  | cons raw rest ih => rw [inTurn_cons, List.forall_mem_append, h, ih, List.forall_mem_cons]

theorem forall_mem_inTurn {P : Condition → Prop} (h : ∀ i raw, ∀ c ∈ conditions i raw, P c)
    (index : Nat) (raws : List Value) : ∀ c ∈ inTurn conditions index raws, P c := by
  intro c hc
  obtain ⟨⟨raw, i⟩, -, hmem⟩ := List.mem_flatMap.mp hc
  exact h i raw c hmem

end Conditions

open Conditions

/-! ## Shapes -/

namespace Value

def IsNonEmptyText (v : Value) : Prop :=
  ∃ t ≠ [], v = .text t

def textOrEmpty : Value → Text
  | .text t => t
  | _ => []

end Value

/-! ## Fields -/

namespace Field

structure WellShaped (raw : Value) : Prop where
  isMap : raw.IsMap
  name : (raw.under "name").IsNonEmptyText
  type : (raw.under "type").IsNonEmptyText

def subject (index : Nat) : Text :=
  "field #" ++ Text.ofNat index

/-- Whether a raw field has texts for its name and its type, which may be empty. -/
def HasTexts (raw : Value) : Prop :=
  ∃ name type, raw.under "name" = .text name ∧ raw.under "type" = .text type

/-- The conditions on the raw field at a position in a model. -/
def conditions (model : Text) (index : Nat) (raw : Value) : List Condition := [
  { subject := subject index, holds := raw.IsMap, error := .fieldNotAnObject index model },
  { subject := subject index, holds := HasTexts raw, error := .fieldWithoutNameOrType index model },
  { subject := subject index, holds := raw.under "name" ≠ .text [] ∧ raw.under "type" ≠ .text [],
    error := .fieldWithEmptyNameOrType index model }]

theorem ofValue_of_not_hasTexts {access : Access} {entries : List (Text × Value)}
    (h : ¬ HasTexts (.map access entries)) (model : Text) (index : Nat) :
    ofValue model index (.map access entries) = .error (.fieldWithoutNameOrType index model) := by
  apply ofValue_of_not_text
  by_contra hor
  push Not at hor
  obtain ⟨⟨name, hname⟩, type, htype⟩ := hor
  exact h ⟨name, type, hname, htype⟩

theorem checks_ofValue (model : Text) (index : Nat) (raw : Value) :
    Checks (conditions model index raw) (ofValue model index raw) := by
  unfold conditions
  by_cases hmap : raw.IsMap
  · refine .cons hmap ?_
    obtain ⟨access, entries, rfl⟩ := hmap
    by_cases htexts : HasTexts (.map access entries)
    · refine .cons htexts ?_
      obtain ⟨name, type, hname, htype⟩ := htexts
      rw [hname, htype]
      rw [Value.under_map] at hname htype
      unfold ofValue
      simp only [hname, htype]
      by_cases hempty : (name.isEmpty || type.isEmpty) = true
      · rw [if_pos hempty]
        refine .violated ?_
        rcases Bool.or_eq_true_iff.mp hempty with h | h
        · exact fun hne => hne.1 (congrArg Value.text (List.isEmpty_iff.mp h))
        · exact fun hne => hne.2 (congrArg Value.text (List.isEmpty_iff.mp h))
      · rw [if_neg hempty]
        rw [Bool.or_eq_true, List.isEmpty_iff, List.isEmpty_iff, not_or] at hempty
        exact .cons ⟨mt Value.text.inj hempty.1, mt Value.text.inj hempty.2⟩ (.nil _)
    · rw [ofValue_of_not_hasTexts htexts]
      exact .violated htexts
  · rw [ofValue_of_not_isMap hmap]
    exact .violated hmap

theorem checks_listOfValues (model : Text) (index : Nat) (raws : List Value) :
    Checks (inTurn (conditions model) index raws) (listOfValues model index raws) := by
  induction raws generalizing index with
  | nil => exact .nil _
  | cons raw rest ih => exact (checks_ofValue model index raw).append (ih (index + 1))

theorem forall_conditions_iff (model : Text) (index : Nat) (raw : Value) :
    (∀ c ∈ conditions model index raw, c.holds) ↔ WellShaped raw := by
  simp only [conditions, List.forall_mem_cons]
  constructor
  · rintro ⟨hmap, ⟨name, type, hname, htype⟩, hne, -⟩
    rw [hname, htype] at hne
    exact ⟨hmap, ⟨name, fun h => hne.1 (congrArg Value.text h), hname⟩,
      ⟨type, fun h => hne.2 (congrArg Value.text h), htype⟩⟩
  · rintro ⟨hmap, ⟨name, hname, hname'⟩, type, htype, htype'⟩
    refine ⟨hmap, ⟨name, type, hname', htype'⟩, ?_, List.forall_mem_nil _⟩
    rw [hname', htype']
    exact ⟨mt Value.text.inj hname, mt Value.text.inj htype⟩

end Field

/-! ## Models -/

namespace Model

structure WellShaped (raw : Value) : Prop where
  isMap : raw.IsMap
  name : (raw.under "name").IsNonEmptyText
  isList : (raw.under "fields").IsList
  fields : ∀ field ∈ (raw.under "fields").items, Field.WellShaped field

def subject (index : Nat) : Text :=
  "model #" ++ Text.ofNat index

/-- The conditions on the raw model at a position, with those on its fields after its own. -/
def conditions (index : Nat) (raw : Value) : List Condition :=
  let name := (raw.under "name").textOrEmpty
  { subject := subject index, holds := raw.IsMap, error := .modelNotAnObject index } ::
  { subject := subject index, holds := (raw.under "name").IsNonEmptyText,
    error := .modelWithoutName index } ::
  { subject := subject index, holds := (raw.under "fields").IsList,
    error := .modelWithoutFields name } ::
  inTurn (Field.conditions name) 0 (raw.under "fields").items

def schemaConditions (raw : Value) : List Condition :=
  { subject := "schema models", holds := raw.IsList, error := .notAList } ::
  inTurn conditions 0 raw.items

theorem ofValue_of_not_isNonEmptyText {access : Access} {entries : List (Text × Value)}
    (h : ¬ (Value.getD "name" entries).IsNonEmptyText) (index : Nat) :
    ofValue index (.map access entries) = .error (.modelWithoutName index) := by
  unfold ofValue
  dsimp only
  split
  · next name hname =>
      rw [if_pos]
      by_contra hne
      exact h ⟨name, mt List.isEmpty_iff.mpr hne, hname⟩
  · rfl

theorem checks_ofValue (index : Nat) (raw : Value) :
    Checks (conditions index raw) (ofValue index raw) := by
  unfold conditions
  by_cases hmap : raw.IsMap
  · refine .cons hmap ?_
    obtain ⟨access, entries, rfl⟩ := hmap
    rw [Value.under_map, Value.under_map]
    by_cases hname : (Value.getD "name" entries).IsNonEmptyText
    · refine .cons hname ?_
      obtain ⟨name, hne, hname⟩ := hname
      have hempty : name.isEmpty = false := List.isEmpty_eq_false_iff.mpr hne
      unfold ofValue
      simp only [hname, hempty, Bool.false_eq_true, if_false]
      by_cases hlist : (Value.getD "fields" entries).IsList
      · refine .cons hlist ?_
        obtain ⟨listAccess, raws, hraws⟩ := hlist
        rw [hraws]
        exact (Field.checks_listOfValues name 0 raws).map _
      · split
        · next listAccess raws hraws => exact absurd ⟨listAccess, raws, hraws⟩ hlist
        · exact .violated hlist
    · rw [ofValue_of_not_isNonEmptyText hname]
      exact .violated hname
  · rw [ofValue_of_not_isMap hmap]
    exact .violated hmap

theorem checks_listOfValues (index : Nat) (raws : List Value) :
    Checks (inTurn conditions index raws) (listOfValues index raws) := by
  induction raws generalizing index with
  | nil => exact .nil _
  | cons raw rest ih => exact (checks_ofValue index raw).append (ih (index + 1))

theorem checks_schemaConditions (raw : Value) :
    Checks (schemaConditions raw) (listOfValue raw) := by
  unfold schemaConditions listOfValue
  split
  · next access raws => exact .cons ⟨access, raws, rfl⟩ (checks_listOfValues 0 raws)
  · next hlist =>
      refine .violated ?_
      rintro ⟨access, raws, rfl⟩
      exact hlist access raws rfl

theorem forall_conditions_iff (index : Nat) (raw : Value) :
    (∀ c ∈ conditions index raw, c.holds) ↔ WellShaped raw := by
  simp only [conditions, List.forall_mem_cons,
    forall_holds_inTurn_iff (Field.forall_conditions_iff _)]
  constructor
  · rintro ⟨hmap, hname, hlist, hfields⟩
    exact ⟨hmap, hname, hlist, hfields⟩
  · intro h
    exact ⟨h.isMap, h.name, h.isList, h.fields⟩

end Model

/-! ## Messages -/

def Condition.NamesSubject (c : Condition) : Prop :=
  (c.subject ++ " " : Text) <+: c.error.message

def Condition.NamesModel (name : Text) (c : Condition) : Prop :=
  ("model '" ++ name ++ "'" : Text) <:+: c.error.message

/-- Whether a condition is the one whose message names its subject by the name of a model. -/
def Condition.IsOnFields (c : Condition) : Prop :=
  ∃ name, c.error = .modelWithoutFields name

theorem Text.not_prefix_of_differs {start t : Text} (h : differs start t) (rest after : Text) :
    ¬ (start ++ rest) <+: (t ++ after) := by
  rintro ⟨tail, htail⟩
  have hstart := dropStart?_append start (rest ++ tail)
  rw [← List.append_assoc, htail, dropStart?_of_differs (differs_append h after)] at hstart
  cases hstart

namespace Field

theorem prefix_fieldTitle (index : Nat) (model rest : Text) :
    (subject index ++ " " : Text) <+: fieldTitle index model ++ rest := by
  have hspace : (" of model '" : Text) = " " ++ "of model '" := rfl
  refine ⟨"of model '" ++ (model ++ ("'" ++ rest)), ?_⟩
  simp only [fieldTitle, subject, hspace, List.append_assoc]

theorem namesSubject_of_mem_conditions (model : Text) (index : Nat) (raw : Value) :
    ∀ c ∈ conditions model index raw, c.NamesSubject := by
  simp only [conditions, List.forall_mem_cons]
  exact ⟨prefix_fieldTitle index model _, prefix_fieldTitle index model _,
    prefix_fieldTitle index model _, List.forall_mem_nil _⟩

theorem infix_fieldTitle (index : Nat) (model rest : Text) :
    ("model '" ++ model ++ "'" : Text) <:+: fieldTitle index model ++ rest := by
  have hof : Text.ofString " of model '" = Text.ofString " of " ++ Text.ofString "model '" := rfl
  refine ⟨"field #" ++ Text.ofNat index ++ " of ", rest, ?_⟩
  simp only [fieldTitle, hof, List.append_assoc]

theorem namesModel_of_mem_conditions (model : Text) (index : Nat) (raw : Value) :
    ∀ c ∈ conditions model index raw, c.NamesModel model := by
  simp only [conditions, List.forall_mem_cons]
  exact ⟨infix_fieldTitle index model _, infix_fieldTitle index model _,
    infix_fieldTitle index model _, List.forall_mem_nil _⟩

theorem not_isOnFields_of_mem_conditions (model : Text) (index : Nat) (raw : Value) :
    ∀ c ∈ conditions model index raw, ¬ c.IsOnFields := by
  simp only [conditions, List.forall_mem_cons, Condition.IsOnFields, reduceCtorEq, exists_false,
    not_false_eq_true, true_and]
  exact List.forall_mem_nil _

end Field

namespace Model

theorem prefix_subject (index : Nat) (rest : Text) :
    (subject index ++ " " : Text) <+: ("model #" ++ Text.ofNat index ++ (" " ++ rest) : Text) := by
  refine ⟨rest, ?_⟩
  simp only [subject, List.append_assoc]

theorem namesSubject_iff_of_mem_conditions (index : Nat) (raw : Value) :
    ∀ c ∈ conditions index raw, c.NamesSubject ↔ ¬ c.IsOnFields := by
  simp only [conditions, List.forall_mem_cons]
  refine ⟨iff_of_true ?_ ?_, iff_of_true ?_ ?_, iff_of_false ?_ ?_, ?_⟩
  · exact prefix_subject index "must be an object"
  · rintro ⟨name, hname⟩
    cases hname
  · exact prefix_subject index "must define a string 'name'"
  · rintro ⟨name, hname⟩
    cases hname
  · rw [Condition.NamesSubject, subject, List.append_assoc]
    simp only [ShapeError.message, List.append_assoc]
    exact Text.not_prefix_of_differs (by decide) _ _
  · exact fun hnot => hnot ⟨_, rfl⟩
  · exact forall_mem_inTurn (fun i field c hc =>
      iff_of_true (Field.namesSubject_of_mem_conditions _ i field c hc)
        (Field.not_isOnFields_of_mem_conditions _ i field c hc)) 0 _

/-- The first two conditions are that it is an object and has a name. -/
theorem namesModel_of_mem_conditions (index : Nat) (raw : Value) :
    ∀ c ∈ (conditions index raw).drop 2, c.NamesModel (raw.under "name").textOrEmpty := by
  simp only [conditions, List.drop_succ_cons, List.drop_zero, List.forall_mem_cons]
  have hquote : Text.ofString "' must define a 'fields' array" =
      Text.ofString "'" ++ Text.ofString " must define a 'fields' array" := rfl
  refine ⟨⟨[], " must define a 'fields' array", ?_⟩,
    forall_mem_inTurn (Field.namesModel_of_mem_conditions _) 0 _⟩
  simp only [ShapeError.message, hquote, List.nil_append, List.append_assoc]

theorem namesSubject_iff_of_mem_schemaConditions (raw : Value) :
    ∀ c ∈ schemaConditions raw, c.NamesSubject ↔ ¬ c.IsOnFields := by
  simp only [schemaConditions, List.forall_mem_cons]
  refine ⟨iff_of_true ?_ ?_, forall_mem_inTurn namesSubject_iff_of_mem_conditions 0 _⟩
  · exact ⟨"must be a list of model records", rfl⟩
  · rintro ⟨name, hname⟩
    cases hname

/-! ## Reading a schema -/

def SchemaWellShaped (raw : Value) : Prop :=
  raw.IsList ∧ ∀ model ∈ raw.items, WellShaped model

theorem forall_schemaConditions_iff (raw : Value) :
    (∀ c ∈ schemaConditions raw, c.holds) ↔ SchemaWellShaped raw := by
  simp only [schemaConditions, List.forall_mem_cons, SchemaWellShaped,
    forall_holds_inTurn_iff forall_conditions_iff]

/-- Whether models are those of a raw schema one by one, with the names of models and the names and
types of fields as they are there. -/
def Copies (raw : Value) (models : List Model) : Prop :=
  List.Forall₂ (fun rawModel m => rawModel.under "name" = .text m.name ∧
      List.Forall₂ (fun rawField f =>
          rawField.under "name" = .text f.name ∧ rawField.under "type" = .text f.type)
        (rawModel.under "fields").items m.fields)
    raw.items models

theorem copies_of_listOfValue {raw : Value} {models : List Model}
    (h : listOfValue raw = .ok models) : Copies raw models :=
  (listOfValue_eq_ok.mp h).2.imp fun _ _ hm =>
    ⟨hm.name, hm.fields.imp fun _ _ hf => ⟨hf.name, hf.type⟩⟩

/-- A raw value is read as models exactly if it has the shape of a schema, and then they are copies.
Any other one is rejected for the first condition that it violates, in document order.  The message
begins with the subject of this condition, which has its position, unless that is the condition on
the fields of a model.  Messages on a model that has a name have the name in them. -/
theorem checks_listOfValue (raw : Value) :
    ((∃ models, listOfValue raw = .ok models) ↔ SchemaWellShaped raw) ∧
      (∀ models, listOfValue raw = .ok models → Copies raw models) ∧
      Checks (schemaConditions raw) (listOfValue raw) ∧
      (∀ c ∈ schemaConditions raw, c.NamesSubject ↔ ¬ c.IsOnFields) ∧
      ∀ index, ∀ model ∈ raw.items, ∀ c ∈ (conditions index model).drop 2,
        c.NamesModel (model.under "name").textOrEmpty := by
  have hchecks := checks_schemaConditions raw
  refine ⟨?_, fun _ => copies_of_listOfValue, hchecks,
    namesSubject_iff_of_mem_schemaConditions raw,
    fun index model _ => namesModel_of_mem_conditions index model⟩
  rw [hchecks.exists_ok_iff, forall_schemaConditions_iff]

/-- A field of one model comes before the model after it, and a missing text before an empty one. -/
example : listOfValue (.list .readOnly [
    .map .writable [("name", .text "A"), ("fields", .list .writable [
      .map .writable [("name", .text ""), ("type", .int 1)]])],
    .map .writable []]) = .error (.fieldWithoutNameOrType 0 "A") := rfl

/-- Two models of one name, of which only the second has no fields. -/
def sameNameSchema : Value :=
  .list .writable [
    .map .writable [("name", .text "A"), ("fields", .list .writable [])],
    .map .writable [("name", .text "A")]]

/-- The second model is the first offence, and the message does not have its position. -/
theorem position_notMem_message :
    ∃ before c after, schemaConditions sameNameSchema = before ++ c :: after ∧
      (∀ b ∈ before, b.holds) ∧ ¬ c.holds ∧ c.subject = Text.ofString "model #1" ∧
      listOfValue sameNameSchema = .error c.error ∧
      c.error.message = Text.ofString "model 'A' must define a 'fields' array" ∧
      CodePoint.ofChar '1' ∉ c.error.message := by
  refine ⟨(schemaConditions sameNameSchema).take 6, _, [], rfl, ?_, ?_, rfl, rfl, rfl, ?_⟩
  · change ∀ b ∈ ([_, _, _, _, _, _] : List Condition), b.holds
    simp only [List.forall_mem_cons]
    exact ⟨⟨_, _, rfl⟩, ⟨_, _, rfl⟩, ⟨"A", by decide, rfl⟩, ⟨_, _, rfl⟩, ⟨_, _, rfl⟩,
      ⟨"A", by decide, rfl⟩, List.forall_mem_nil _⟩
  · rintro ⟨access, items, hitems⟩
    cases hitems
  · decide

end Model

end SchemaDocs
