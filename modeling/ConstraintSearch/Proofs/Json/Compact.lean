import ConstraintSearch.Json.Compact
import ConstraintSearch.Proofs.Json.Shape
import ConstraintSearch.Proofs.Json.Value

/-!
# The compact library keeps the rules

`Json.compact` reads and writes as `JsonLibrary.Rules` says (`Json.compact_rules`).  For texts this is
what `Proofs.Json.Value` shows.  Writing and reading go through the fields of a record one after the
other, the rules speak of all of them at once: the two are linked by induction over the fields.

So the hypotheses about a library can be met by one that can be run.  Whoever reads with a library is
free to choose another one that keeps the rules; nothing outside this module depends on the choice.
-/

namespace ConstraintSearch.Json

variable {fields : List (String × Shape)} {members : List (List Char × JsonValue)} {name : String}

/-! ## Strings and numbers -/

theorem decode?_plain (h : PlainName name) : decode? name.toList = some name := by
  have hjoined : ∀ text : List Char, joinParts? (text.map .inl) = some text := by
    intro text
    induction text with
    | nil => rfl
    | cons c text ih => rw [List.map_cons, joinParts?, ih, Option.map_some]
  rw [decode?, h.parts?_eq, Option.bind_some, hjoined, Option.map_some, String.ofList_toList]

theorem wordOf?_iff {literal : List Char} {n : Nat} :
    wordOf? literal = some n ↔ natural? literal = some n ∧ n < wordCount := by
  rw [wordOf?, Option.filter_eq_some_iff, decide_eq_true_iff]

/-! ## Writing -/

theorem writtenFields_eq (fields : List (String × Shape)) (data : List Datum) :
    writtenFields fields data = (fields.zip data).map fun entry =>
      (entry.1.1.toList, written entry.1.2 entry.2) := by
  induction fields generalizing data with
  | nil => cases data <;> rfl
  | cons field fields ih =>
      cases data with
      | nil => rfl
      | cons datum data =>
          rw [writtenFields, ih, List.zip_cons_cons, List.map_cons]

theorem compact_writes : compact.WritingRules where
  written_word _ := rfl
  written_absent _ := rfl
  written_present _ _ := rfl
  written_chosen _ _ _ := rfl
  written_record _ _ := congrArg JsonValue.object (writtenFields_eq _ _)

/-! ## Reading -/

theorem choice?_eq_some_iff {value : JsonValue} :
    choice? value = some name ↔ ∃ body, decode? body = some name ∧
      (value = .string body ∨ value = .object [(body, .null)]) := by
  constructor
  · intro h
    unfold choice? at h
    split at h
    · exact ⟨_, h, .inl rfl⟩
    · exact ⟨_, h, .inr rfl⟩
    · cases h
  · rintro ⟨body, hbody, rfl | rfl⟩
    · exact hbody
    · exact hbody

theorem missing?_eq_some_iff {shape : Shape} {datum : Datum} :
    missing? shape = some datum ↔ (∃ inner, shape = .optional inner) ∧ datum = .absent := by
  cases shape <;> simp [missing?, eq_comm]

/-- What a field is read as, by the values of its name. -/
theorem readsField_iff {shape : Shape} {datum : Datum} :
    compact.ReadsField members (name, shape) datum ↔
      (match valuesOf name members with
        | [] => missing? shape
        | [value] => read? shape value
        | _ => none) = some datum := by
  constructor
  · intro h
    cases h with
    | found hvalues hread =>
        have hvalues : valuesOf name members = [_] := hvalues
        rw [hvalues]
        exact hread
    | missing hvalues =>
        have hvalues : valuesOf name members = [] := hvalues
        rw [hvalues]
        rfl
  · intro h
    split at h
    · rename_i hvalues
      obtain ⟨⟨inner, rfl⟩, rfl⟩ := missing?_eq_some_iff.1 h
      exact .missing hvalues
    · rename_i hvalues
      exact .found hvalues h
    · cases h

theorem readFields?_eq_some_iff {data : List Datum} : readFields? fields members = some data ↔
    List.Forall₂ (compact.ReadsField members) fields data := by
  induction fields generalizing data with
  | nil =>
      rw [readFields?, List.forall₂_nil_left_iff, Option.some.injEq]
      exact eq_comm
  | cons field fields ih =>
      obtain ⟨name, shape⟩ := field
      rw [readFields?, List.forall₂_cons_left_iff]
      simp only [Option.bind_eq_some_iff, Option.map_eq_some_iff, ih]
      constructor
      · rintro ⟨datum, hdatum, rest, hrest, rfl⟩
        exact ⟨datum, rest, readsField_iff.2 hdatum, hrest, rfl⟩
      · rintro ⟨datum, rest, hdatum, hrest, rfl⟩
        exact ⟨datum, readsField_iff.1 hdatum, rest, hrest, rfl⟩

theorem readItems?_eq_some_iff {items : List JsonValue} (hlength : items.length = fields.length)
    {data : List Datum} : readItems? fields items = some data ↔
      List.Forall₂ (fun entry datum => read? entry.1.2 entry.2 = some datum) (fields.zip items)
        data := by
  -- Fields and items are used up together, since there are as many.
  induction fields generalizing items data with
  | nil =>
      obtain rfl := List.length_eq_zero_iff.1 hlength
      rw [readItems?, List.zip_nil_left, List.forall₂_nil_left_iff, Option.some.injEq, eq_comm]
      · nofun
  | cons field fields ih =>
      cases items with
      | nil => exact absurd hlength nofun
      | cons item items =>
          rw [readItems?, List.zip_cons_cons, List.forall₂_cons_left_iff]
          simp only [Option.bind_eq_some_iff, Option.map_eq_some_iff, ih (Nat.succ.inj hlength)]
          constructor
          · rintro ⟨datum, hdatum, rest, hrest, rfl⟩
            exact ⟨datum, rest, hdatum, hrest, rfl⟩
          · rintro ⟨datum, rest, hdatum, hrest, rfl⟩
            exact ⟨datum, hdatum, rest, hrest, rfl⟩

theorem compact_reads : compact.ReadingRules where
  read?_word_iff := by
    intro value datum
    cases value with
    | number literal =>
        show (wordOf? literal).map .word = some datum ↔ _
        rw [Option.map_eq_some_iff]
        constructor
        · rintro ⟨n, hn, rfl⟩
          exact ⟨literal, n, rfl, hn, rfl⟩
        · rintro ⟨_, n, ⟨⟩, hn, rfl⟩
          exact ⟨n, hn, rfl⟩
    | _ => exact ⟨nofun, fun ⟨_, _, hvalue, _⟩ => nomatch hvalue⟩
  read?_null _ := rfl
  read?_optional shape value hvalue := by
    cases value with
    | null => exact absurd rfl hvalue
    | _ => rfl
  read?_choice_iff := by
    intro names value datum
    show (choice? value).bind (fun name => if name ∈ names then some (.chosen name) else none) =
      some datum ↔ _
    rw [Option.bind_eq_some_iff]
    constructor
    · rintro ⟨name, hname, hdatum⟩
      obtain ⟨body, hbody, hvalue⟩ := choice?_eq_some_iff.1 hname
      split at hdatum
      · exact ⟨body, name, ‹_›, hbody, hvalue, (Option.some.inj hdatum).symm⟩
      · cases hdatum
    · rintro ⟨body, name, hmem, hbody, hvalue, rfl⟩
      exact ⟨name, choice?_eq_some_iff.2 ⟨body, hbody, hvalue⟩, if_pos hmem⟩
  read?_object_iff := by
    intro fields members datum
    show (if members.all fun member => (decode? member.1).isSome then
      (readFields? fields members).map Datum.record else none) = some datum ↔ _
    rw [Option.ite_none_right_eq_some, List.all_eq_true, Option.map_eq_some_iff]
    refine and_congr_right fun _ => exists_congr fun data => ?_
    rw [readFields?_eq_some_iff, and_comm, eq_comm]
  read?_array_iff := by
    intro fields items datum
    show (if items.length = fields.length then (readItems? fields items).map Datum.record
      else none) = some datum ↔ _
    rw [Option.ite_none_right_eq_some, Option.map_eq_some_iff]
    refine and_congr_right fun hlength => exists_congr fun data => ?_
    rw [readItems?_eq_some_iff hlength, and_comm, eq_comm]
    rfl
  object_or_array := by
    intro fields value datum hread
    cases value with
    | array items => exact .inr ⟨items, rfl⟩
    | object members => exact .inl ⟨members, rfl⟩
    | _ => cases hread

/-- The library for compact texts keeps all rules. -/
theorem compact_rules : compact.Rules where
  toTextRules :=
    { wellFormed_of_parse? := JsonValue.wellFormed_of_parse?
      parse?_print := JsonValue.parse?_write
      decode?_plain := decode?_plain
      word?_iff := wordOf?_iff }
  toWritingRules := compact_writes
  toReadingRules := compact_reads

end ConstraintSearch.Json
