/-
# Taking a definition apart

A definition is a name, a colon, and fields with a semicolon behind each or only between them.
`Definition.name?` and `Definition.fields` give back what it was put together from, as long as the
first colon is the one behind the name and no field is empty or has a semicolon in it. A field can
have colons and a name can have semicolons.

The runs of characters between separators are `List.splitOn` (`runs_eq_splitOn`), which says what
becomes of joined fields. Of a text that was not joined from fields, the runs say what the fields
are: all that is behind the colon but the semicolons (`flatten_runs`).

Key definitions: `Definition.terminated`, `Definition.separated`.
Key theorems: `Definition.runs_eq_splitOn`, `Definition.flatten_runs`, `Definition.fields_colon`,
`Definition.taken_apart`.
-/
import FlightLink.Log.Message
import Mathlib.Data.List.TakeWhile

namespace FlightLink
namespace Log
namespace Definition

/-! ### Runs -/

theorem runs_eq_splitOn (separator : Char) : ∀ cs : List Char,
    runs separator cs = cs.splitOn separator
  | [] => (List.splitOn_nil separator).symm
  | c :: cs => by
    have ih := runs_eq_splitOn separator cs
    rw [List.splitOn_cons_eq_if_modifyHead, runs, ih]
    by_cases hc : c = separator
    · rw [if_pos hc, if_pos (beq_iff_eq.mpr hc)]
    · rw [if_neg hc, if_neg (fun h => hc (beq_iff_eq.mp h))]
      cases hruns : cs.splitOn separator with
      | nil => exact absurd hruns (List.splitOn_ne_nil separator cs)
      | cons run rest => rfl

/-- The runs hold everything but the separators. -/
theorem flatten_runs (separator : Char) : ∀ cs : List Char,
    (runs separator cs).flatten = cs.filter (· ≠ separator)
  | [] => rfl
  | c :: cs => by
    have ih := flatten_runs separator cs
    by_cases hc : c = separator
    · rw [runs, if_pos hc, List.filter_cons_of_neg (by simpa using hc), ← ih]
      rfl
    · rw [runs, if_neg hc, List.filter_cons_of_pos (by simpa using hc), ← ih]
      cases runs separator cs <;> rfl

theorem notMem_of_mem_runs {separator : Char} {cs run : List Char} (h : run ∈ runs separator cs) :
    separator ∉ run := by
  intro hmem
  have hflat : separator ∈ (runs separator cs).flatten := List.mem_flatten.mpr ⟨run, h, hmem⟩
  rw [flatten_runs] at hflat
  simpa using (List.mem_filter.mp hflat).2

/-- A separator behind the last run makes an empty one. -/
theorem runs_terminated {separator : Char} : ∀ {parts : List (List Char)},
    (∀ part ∈ parts, separator ∉ part) →
    runs separator (parts.flatMap (· ++ [separator])) = parts ++ [[]]
  | [], _ => rfl
  | part :: parts, h => by
    have ih := runs_terminated fun other hother => h other (List.mem_cons_of_mem part hother)
    rw [runs_eq_splitOn] at ih ⊢
    rw [List.flatMap_cons, List.append_assoc, List.singleton_append,
      List.splitOn_append_cons_self_of_not_mem (h part List.mem_cons_self), ih]
    rfl

/-! ### The first colon -/

variable {text name body : String} {parts : List String}

theorem toList_colon (name body : String) :
    (name ++ ":" ++ body).toList = name.toList ++ ':' :: body.toList := by
  rw [String.toList_append, String.toList_append, List.append_assoc]
  rfl

theorem ne_colon {cs : List Char} (h : ':' ∉ cs) : ∀ c ∈ cs, decide (c ≠ ':') = true := by
  intro c hc
  exact decide_eq_true fun he => h (he ▸ hc)

theorem exists_colon (h : ':' ∈ text.toList) :
    ∃ name body, ':' ∉ name.toList ∧ text = name ++ ":" ++ body := by
  obtain ⟨front, behind, htext, hfront⟩ := List.eq_append_cons_of_mem h
  refine ⟨String.ofList front, String.ofList behind, ?_, ?_⟩
  · rwa [String.toList_ofList]
  · rw [← String.toList_inj, toList_colon, String.toList_ofList, String.toList_ofList, htext]

/-- The name is what stands before the first colon. -/
theorem name?_colon (h : ':' ∉ name.toList) (body : String) :
    name? (name ++ ":" ++ body) = some name := by
  unfold name?
  rw [toList_colon, if_pos (List.mem_append_right _ List.mem_cons_self),
    List.takeWhile_append_of_pos (ne_colon h)]
  simp

/-- The fields are what is not empty between the semicolons behind the first colon. -/
theorem fields_colon (h : ':' ∉ name.toList) (body : String) :
    fields (name ++ ":" ++ body) =
      ((runs ';' body.toList).filter (· ≠ [])).map String.ofList := by
  unfold fields
  rw [toList_colon, List.dropWhile_append_of_pos (ne_colon h)]
  simp

theorem name?_eq_none_iff (text : String) : name? text = none ↔ ':' ∉ text.toList := by
  unfold name?
  split
  · rename_i h
    exact iff_of_false (Option.some_ne_none _) (not_not.mpr h)
  · rename_i h
    exact iff_of_true rfl h

theorem fields_of_notMem (h : ':' ∉ text.toList) : fields text = [] := by
  have htext : text.toList.dropWhile (· ≠ ':') = [] :=
    List.dropWhile_eq_nil_iff.mpr (ne_colon h)
  unfold fields
  rw [htext]
  rfl

/-! ### Fields -/

theorem of_mem_fields {field : String} (h : field ∈ fields text) :
    field ≠ "" ∧ ';' ∉ field.toList := by
  obtain ⟨run, hrun, rfl⟩ := List.mem_map.mp h
  obtain ⟨hruns, hne⟩ := List.mem_filter.mp hrun
  rw [String.toList_ofList]
  refine ⟨fun he => of_decide_eq_true hne ?_, notMem_of_mem_runs hruns⟩
  rw [← String.toList_inj, String.toList_ofList] at he
  exact he

/-- Put together, the fields are what is behind the colon without the semicolons. -/
theorem join_fields (h : ':' ∉ name.toList) (body : String) :
    String.join (fields (name ++ ":" ++ body)) = String.ofList (body.toList.filter (· ≠ ';')) := by
  rw [← String.toList_inj, String.toList_join, String.toList_ofList, ← flatten_runs,
    fields_colon h, List.flatMap_map]
  simp only [String.toList_ofList, List.flatMap_id', List.flatten_filter_ne_nil]

/-! ### Definitions put together -/

/-- A definition with a semicolon behind each field. -/
def terminated (name : String) (parts : List String) : String :=
  name ++ ":" ++ String.join (parts.map (· ++ ";"))

/-- A definition with semicolons only between the fields. -/
def separated (name : String) (parts : List String) : String :=
  name ++ ":" ++ ";".intercalate parts

/-- If the runs are the fields, none of them empty, and else only empty ones, the fields are found. -/
theorem fields_of_runs (rest : List (List Char)) (h : ':' ∉ name.toList)
    (hparts : ∀ part ∈ parts, part ≠ "")
    (hruns : runs ';' body.toList = parts.map String.toList ++ rest)
    (hrest : ∀ run ∈ rest, run = []) : fields (name ++ ":" ++ body) = parts := by
  have hkept : (parts.map String.toList).filter (· ≠ []) = parts.map String.toList := by
    rw [List.filter_eq_self, List.forall_mem_map]
    intro part hpart
    exact decide_eq_true fun he => hparts part hpart (String.toList_inj.mp he)
  have hleft : rest.filter (· ≠ []) = [] := by
    rw [List.filter_eq_nil_iff]
    intro run hrun
    simp [hrest run hrun]
  rw [fields_colon h, hruns, List.filter_append, hkept, hleft, List.append_nil]
  simp

theorem fields_terminated (h : ':' ∉ name.toList)
    (hparts : ∀ part ∈ parts, part ≠ "" ∧ ';' ∉ part.toList) :
    fields (terminated name parts) = parts := by
  have hjoin : (String.join (parts.map (· ++ ";"))).toList =
      (parts.map String.toList).flatMap (· ++ [';']) := by
    rw [String.toList_join, List.flatMap_map, List.flatMap_map]
    simp only [String.toList_append]
    rfl
  have hruns : ∀ run ∈ parts.map String.toList, ';' ∉ run :=
    List.forall_mem_map.mpr fun part hpart => (hparts part hpart).2
  refine fields_of_runs [[]] h (fun part hpart => (hparts part hpart).1) ?_ ?_
  · rw [hjoin, runs_terminated hruns]
  · exact fun run hrun => List.mem_singleton.mp hrun

theorem fields_separated (h : ':' ∉ name.toList)
    (hparts : ∀ part ∈ parts, part ≠ "" ∧ ';' ∉ part.toList) :
    fields (separated name parts) = parts := by
  have hruns : ∀ run ∈ parts.map String.toList, ';' ∉ run :=
    List.forall_mem_map.mpr fun part hpart => (hparts part hpart).2
  have hjoin : (";".intercalate parts).toList = [';'].intercalate (parts.map String.toList) :=
    String.toList_intercalate
  have hne : ∀ part ∈ parts, part ≠ "" := fun part hpart => (hparts part hpart).1
  -- Without a field there is an empty run, as if a separator stood behind the last one.
  cases parts with
  | nil => exact fields_of_runs [[]] h hne rfl fun run hrun => List.mem_singleton.mp hrun
  | cons part parts =>
    refine fields_of_runs [] h hne ?_ fun run hrun => absurd hrun List.not_mem_nil
    rw [hjoin, runs_eq_splitOn, List.splitOn_intercalate _ hruns (List.cons_ne_nil _ _),
      List.append_nil]

/-- **Definitions are taken apart into what they were put together from.** That is so for any name
without a colon and any fields that are not empty and have no semicolon, with a semicolon behind the
last field or without. Of any text at all, the fields are not empty, have no semicolon, and are
together the text behind the first colon without its semicolons; without a colon there are none,
and only then there is no name. -/
theorem taken_apart :
    (∀ name parts, ':' ∉ name.toList → (∀ part ∈ parts, part ≠ "" ∧ ';' ∉ part.toList) →
      ∀ text, text = terminated name parts ∨ text = separated name parts →
        name? text = some name ∧ fields text = parts) ∧
      ∀ text, (∀ field ∈ fields text, field ≠ "" ∧ ';' ∉ field.toList) ∧
        (':' ∈ text.toList → ∃ name body, ':' ∉ name.toList ∧ text = name ++ ":" ++ body ∧
          name? text = some name ∧
          String.join (fields text) = String.ofList (body.toList.filter (· ≠ ';'))) ∧
        (':' ∉ text.toList → fields text = []) ∧ (name? text = none ↔ ':' ∉ text.toList) := by
  constructor
  · rintro name parts h hparts text (rfl | rfl)
    · exact ⟨name?_colon h _, fields_terminated h hparts⟩
    · exact ⟨name?_colon h _, fields_separated h hparts⟩
  · intro text
    refine ⟨fun field => of_mem_fields, ?_, fields_of_notMem, name?_eq_none_iff text⟩
    intro h
    obtain ⟨name, body, hname, rfl⟩ := exists_colon h
    exact ⟨name, body, hname, rfl, name?_colon hname body, join_fields hname body⟩

/-- A semicolon in the name and a colon in a field do no harm. -/
theorem taken_apart_pair :
    (':' ∉ "a;b".toList ∧ ∀ part ∈ ["u:v", "w"], part ≠ "" ∧ ';' ∉ part.toList) ∧
      separated "a;b" ["u:v", "w"] = "a;b:u:v;w" ∧ name? "a;b:u:v;w" = some "a;b" ∧
      fields "a;b:u:v;w" = ["u:v", "w"] := by
  have hname : ':' ∉ "a;b".toList := by decide
  have hparts : ∀ part ∈ ["u:v", "w"], part ≠ "" ∧ ';' ∉ part.toList := by decide
  have htext : separated "a;b" ["u:v", "w"] = "a;b:u:v;w" := by decide
  obtain ⟨hfound, hfields⟩ := taken_apart.1 "a;b" ["u:v", "w"] hname hparts _ (.inr htext.symm)
  exact ⟨⟨hname, hparts⟩, htext, hfound, hfields⟩

end Definition
end Log
end FlightLink
