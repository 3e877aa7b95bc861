import ConstraintSearch.Proofs.Json.Rules
import ConstraintSearch.Proofs.Json.Token
import Mathlib.Data.List.Nodup
import Mathlib.Logic.Relation

/-!
# What shapes keep as JSON

Let a library keep the rules.  Then a datum is read back from what is written for it, whatever its
shape, as long as it fits the shape (`Rules.read?_written`); and whatever a library reads does fit
(`Rules.fits_of_read?`).  So a datum that was read can be written and read again.

Reading does not depend on how the members of an object are arranged.  `Rearranged` lists what may be
changed: the members of a record are permuted, a member of another name is put in, or one of the
fields is rearranged in its turn, wherever it stands.  By induction on the change, the same is read as
before (`Rules.read?_rearranged`).

For a type it remains to be seen that its values and their data determine each other
(`Format.Faithful`).  Then both properties hold of its texts: `RoundTrips` and `Disregards`.
-/

namespace ConstraintSearch

/-! ## Shapes and their data -/

/-- All names are plain, those of a record differ from each other, and nothing that may be absent is
written as null when it is present. -/
inductive Shape.Proper : Shape → Prop where
  | word : Proper .word
  | optional {shape : Shape} (hshape : shape.Proper) (hnot : ∀ inner, shape ≠ .optional inner) :
      Proper (.optional shape)
  | choice {names : List String} (hplain : ∀ name ∈ names, PlainName name) : Proper (.choice names)
  | record {fields : List (String × Shape)} (hplain : ∀ field ∈ fields, PlainName field.1)
      (hnodup : (fields.map Prod.fst).Nodup) (hfields : ∀ field ∈ fields, field.2.Proper) :
      Proper (.record fields)

/-- The datum is one of the shape, and its numbers are words. -/
inductive Shape.Fits : Shape → Datum → Prop where
  | word {n : Nat} (h : n < wordCount) : Fits .word (.word n)
  | absent {shape : Shape} : Fits (.optional shape) .absent
  | present {shape : Shape} {datum : Datum} (h : shape.Fits datum) :
      Fits (.optional shape) (.present datum)
  | chosen {names : List String} {name : String} (h : name ∈ names) :
      Fits (.choice names) (.chosen name)
  | record {fields : List (String × Shape)} {data : List Datum}
      (hlength : fields.length = data.length)
      (h : ∀ entry ∈ fields.zip data, entry.1.2.Fits entry.2) : Fits (.record fields) (.record data)

theorem Shape.fits_record {fields : List (String × Shape)} {data : List Datum}
    (h : List.Forall₂ (fun field datum => field.2.Fits datum) fields data) :
    (Shape.record fields).Fits (.record data) := by
  obtain ⟨hlength, hzip⟩ := List.forall₂_iff_zip.1 h
  exact .record hlength fun _ hentry => hzip hentry

theorem Shape.Fits.exists_data {fields : List (String × Shape)} {datum : Datum}
    (h : (Shape.record fields).Fits datum) : ∃ data, datum = .record data ∧
      List.Forall₂ (fun field datum => field.2.Fits datum) fields data := by
  cases h with
  | record hlength h =>
      exact ⟨_, rfl, List.forall₂_iff_zip.2 ⟨hlength, fun {field datum} hpair => h _ hpair⟩⟩

theorem Shape.Fits.exists_word {datum : Datum} (h : Shape.word.Fits datum) :
    ∃ n, datum = .word n ∧ n < wordCount := by
  cases h with
  | word h => exact ⟨_, rfl, h⟩

/-! ## Plain names and decimal numbers -/

theorem PlainName.parts?_eq {name : String} (h : PlainName name) :
    Json.parts? name.toList = some (name.toList.map .inl) := by
  unfold PlainName at h
  generalize name.toList = text at h ⊢
  induction text with
  | nil => rfl
  | cons c text ih =>
      obtain ⟨⟨hquote, hbackslash, hprintable⟩, htail⟩ := List.forall_mem_cons.1 h
      have hgood : ¬(c = '\\' ∨ c = '"' ∨ c.toNat < 0x20) := by
        rintro (hc | hc | hc)
        · exact hbackslash hc
        · exact hquote hc
        · omega
      rw [Json.parts?, if_neg hgood, ih htail]
      · rfl
      · intro _ _ _ _ _ hc
        exact absurd hc hbackslash
      · intro _ _ hc
        exact absurd hc hbackslash

theorem PlainName.isSome_parts? {name : String} (h : PlainName name) :
    (Json.parts? name.toList).isSome = true := by
  rw [h.parts?_eq]
  rfl

namespace JsonValue

theorem ofNat_eq (n : Nat) : ofNat n = .number (Nat.toDigits 10 n) := by
  rw [ofNat, Nat.toString_eq_ofList_toDigits, String.toList_ofList]

theorem wellFormed_ofNat (n : Nat) : (ofNat n).WellFormed := by
  rw [ofNat_eq]
  exact .number _ (Json.isNumber_of_isNatural (Json.isNatural_toDigits n))

theorem wellFormed_ofName {name : String} (h : PlainName name) : (ofName name).WellFormed :=
  .string _ h.isSome_parts?

end JsonValue

namespace JsonLibrary

variable {library : JsonLibrary} {shape : Shape} {datum : Datum} {value arranged : JsonValue}
  {fields : List (String × Shape)} {members : List (List Char × JsonValue)}

/-! ## The members of a name -/

section Members

variable {name text : String} {body : List Char} {front behind : List (List Char × JsonValue)}

theorem valuesOf_append : library.valuesOf name (front ++ behind) =
    library.valuesOf name front ++ library.valuesOf name behind := by
  simp only [valuesOf, List.filter_append, List.map_append]

theorem valuesOf_cons_of_eq (h : library.decode? body = some name) :
    library.valuesOf name ((body, value) :: members) = value :: library.valuesOf name members := by
  simp [valuesOf, h]

theorem valuesOf_cons_of_ne (h : library.decode? body = some text) (hne : text ≠ name) :
    library.valuesOf name ((body, value) :: members) = library.valuesOf name members := by
  simp [valuesOf, h, hne]

theorem valuesOf_perm {others : List (List Char × JsonValue)} (hperm : members.Perm others) :
    (library.valuesOf name members).Perm (library.valuesOf name others) :=
  (hperm.filter _).map _

/-- If no name is given twice, the member of a name is the only one. -/
theorem valuesOf_of_nodup {entries : List (String × JsonValue)}
    (hdecoded : ∀ entry ∈ entries, library.decode? entry.1.toList = some entry.1)
    (hnodup : (entries.map Prod.fst).Nodup) (hentry : (name, value) ∈ entries) :
    library.valuesOf name (entries.map fun entry => (entry.1.toList, entry.2)) = [value] := by
  induction entries with
  | nil => exact absurd hentry List.not_mem_nil
  | cons entry entries ih =>
      obtain ⟨hfirst, hrest⟩ := List.forall_mem_cons.1 hdecoded
      rw [List.map_cons, List.nodup_cons] at hnodup
      obtain ⟨hnew, hnodup⟩ := hnodup
      rw [List.map_cons]
      rcases List.mem_cons.1 hentry with rfl | hmem
      · have hnone : library.valuesOf name
            (entries.map fun entry => (entry.1.toList, entry.2)) = [] := by
          rw [valuesOf, List.map_eq_nil_iff, List.filter_eq_nil_iff]
          intro member hmember hname
          obtain ⟨other, hother, rfl⟩ := List.mem_map.1 hmember
          rw [hrest other hother, beq_iff_eq] at hname
          exact hnew (Option.some.inj hname ▸ List.mem_map.2 ⟨other, hother, rfl⟩)
        rw [valuesOf_cons_of_eq hfirst, hnone]
      · have hne : entry.1 ≠ name := fun hsame =>
          hnew (hsame ▸ List.mem_map_of_mem hmem)
        rw [valuesOf_cons_of_ne hfirst hne]
        exact ih hrest hnodup hmem

end Members

/-! ## What is written is read back -/

namespace Rules

variable (hrules : library.Rules)

include hrules

theorem word?_ofNat {n : Nat} (h : n < wordCount) :
    library.word? (Nat.toDigits 10 n) = some n :=
  hrules.word?_iff.2 ⟨Json.natural?_toDigits n, h⟩

theorem written_ne_null (hproper : shape.Proper) (hnot : ∀ inner, shape ≠ .optional inner)
    (hfits : shape.Fits datum) : library.written shape datum ≠ .null := by
  cases hfits with
  | word h =>
      rw [hrules.written_word h]
      nofun
  | absent => exact absurd rfl (hnot _)
  | present _ => exact absurd rfl (hnot _)
  | chosen h =>
      cases hproper with
      | choice hplain =>
          rw [hrules.written_chosen _ (hplain _ h)]
          nofun
  | record hlength _ =>
      cases hproper with
      | record hplain _ _ =>
          rw [hrules.written_record hplain hlength]
          nofun

/-- Whatever is written is well formed. -/
theorem wellFormed_written (hproper : shape.Proper) (hfits : shape.Fits datum) :
    (library.written shape datum).WellFormed := by
  -- On the datum.  The rules of writing say what is written in each case, and the parts are well
  -- formed by induction.
  induction hfits with
  | word h =>
      rw [hrules.written_word h]
      exact JsonValue.wellFormed_ofNat _
  | absent =>
      rw [hrules.written_absent]
      exact .null
  | present _ ih =>
      cases hproper with
      | optional hshape _ =>
          rw [hrules.written_present]
          exact ih hshape
  | chosen h =>
      cases hproper with
      | choice hplain =>
          rw [hrules.written_chosen _ (hplain _ h)]
          exact JsonValue.wellFormed_ofName (hplain _ h)
  | record hlength _ ih =>
      cases hproper with
      | record hplain _ hfields =>
          rw [hrules.written_record hplain hlength]
          refine .object _ ?_ ?_ <;> intro member hmember <;>
            obtain ⟨entry, hentry, rfl⟩ := List.mem_map.1 hmember <;>
            have hfield := (List.of_mem_zip hentry).1
          · exact (hplain _ hfield).isSome_parts?
          · exact ih entry hentry (hfields _ hfield)

/-- A datum that fits is read back. -/
theorem read?_written (hproper : shape.Proper) (hfits : shape.Fits datum) :
    library.read? shape (library.written shape datum) = some datum := by
  induction hfits with
  | word h =>
      rw [hrules.written_word h, JsonValue.ofNat_eq]
      exact hrules.read?_word_iff.2 ⟨_, _, rfl, hrules.word?_ofNat h, rfl⟩
  | absent => rw [hrules.written_absent, hrules.read?_null]
  | present hfits ih =>
      cases hproper with
      | optional hshape hnot =>
          have hpresent := hrules.written_ne_null hshape hnot hfits
          rw [hrules.written_present, hrules.read?_optional _ hpresent, ih hshape]
          rfl
  | @chosen names name h =>
      cases hproper with
      | choice hplain =>
          rw [hrules.written_chosen _ (hplain _ h)]
          exact hrules.read?_choice_iff.2
            ⟨name.toList, name, h, hrules.decode?_plain (hplain _ h), .inl rfl, rfl⟩
  | @record fields data hlength _ ih =>
      cases hproper with
      | record hplain hnodup hfields =>
          -- The members are named as the fields are, so each field finds the one written for it.
          let entries := (fields.zip data).map fun entry =>
            (entry.1.1, library.written entry.1.2 entry.2)
          have hmembers : library.written (.record fields) (.record data) =
              .object (entries.map fun entry => (entry.1.toList, entry.2)) := by
            rw [hrules.written_record hplain hlength, List.map_map]
            rfl
          have hnames : entries.map Prod.fst = fields.map Prod.fst := by
            calc entries.map Prod.fst
                = (fields.zip data).map (Prod.fst ∘ Prod.fst) := List.map_map
              _ = ((fields.zip data).map Prod.fst).map Prod.fst := List.map_map.symm
              _ = fields.map Prod.fst := by
                rw [List.map_fst_zip (Nat.le_of_eq hlength)]
          have hdecoded : ∀ entry ∈ entries,
              library.decode? entry.1.toList = some entry.1 := by
            intro entry hentry
            obtain ⟨source, hsource, rfl⟩ := List.mem_map.1 hentry
            exact hrules.decode?_plain (hplain _ (List.of_mem_zip hsource).1)
          rw [hmembers, hrules.read?_object_iff]
          refine ⟨?_, data, rfl, List.forall₂_iff_zip.2 ⟨hlength, ?_⟩⟩
          · intro member hmember
            obtain ⟨entry, hentry, rfl⟩ := List.mem_map.1 hmember
            rw [hdecoded entry hentry]
            rfl
          · intro field datum hpair
            have hread := ih _ hpair (hfields _ (List.of_mem_zip hpair).1)
            have hentry : (field.1, library.written field.2 datum) ∈ entries :=
              List.mem_map.2 ⟨(field, datum), hpair, rfl⟩
            exact .found (valuesOf_of_nodup hdecoded (hnames ▸ hnodup) hentry) hread

/-! ## What is read fits -/

/-- Every datum that is read fits its shape. -/
theorem fits_of_read? (hproper : shape.Proper) (hread : library.read? shape value = some datum) :
    shape.Fits datum := by
  -- On the shape: what is read for it is put together of what is read for its parts.
  induction hproper generalizing value datum with
  | word =>
      obtain ⟨literal, n, rfl, hword, rfl⟩ := hrules.read?_word_iff.1 hread
      exact .word (hrules.word?_iff.1 hword).2
  | optional _ _ ih =>
      by_cases hnull : value = .null
      · rw [hnull, hrules.read?_null] at hread
        obtain rfl := Option.some.inj hread
        exact .absent
      · rw [hrules.read?_optional _ hnull] at hread
        obtain ⟨inner, hinner, rfl⟩ := Option.map_eq_some_iff.1 hread
        exact .present (ih hinner)
  | choice _ =>
      obtain ⟨body, name, hname, -, -, rfl⟩ := hrules.read?_choice_iff.1 hread
      exact .chosen hname
  | record _ _ _ ih =>
      rcases hrules.object_or_array hread with ⟨members, rfl⟩ | ⟨items, rfl⟩
      · obtain ⟨-, data, rfl, hfields⟩ := hrules.read?_object_iff.1 hread
        -- From an object: each field has its datum, by its name, or is absent.
        obtain ⟨hlength, hzip⟩ := List.forall₂_iff_zip.1 hfields
        refine .record hlength fun entry hentry => ?_
        have hfield := (List.of_mem_zip hentry).1
        have hreads := hzip hentry
        revert hreads hfield
        generalize entry.1 = field, entry.2 = datum
        intro hfield hreads
        cases hreads with
        | found _ hread => exact ih _ hfield hread
        | missing _ => exact .absent
      · obtain ⟨hlength, data, rfl, hitems⟩ := hrules.read?_array_iff.1 hread
        -- From an array: each field has its datum, by its place.
        obtain ⟨hsame, hzip⟩ := List.forall₂_iff_zip.1 hitems
        refine Shape.fits_record ?_
        rw [← List.map_fst_zip (Nat.le_of_eq hlength.symm), List.forall₂_map_left_iff]
        refine List.forall₂_iff_zip.2 ⟨hsame, fun {entry datum} hentry => ?_⟩
        have hfield := (List.of_mem_zip (List.of_mem_zip hentry).1).1
        exact ih _ hfield (hzip hentry)

end Rules

/-! ## Members are arranged -/

/-- The same fields are read from an object whose members have the same values by name. -/
theorem readsField_of_perm {others : List (List Char × JsonValue)} {field : String × Shape}
    (hvalues : (library.valuesOf field.1 members).Perm (library.valuesOf field.1 others))
    (h : library.ReadsField members field datum) : library.ReadsField others field datum := by
  cases h with
  | found hfound hread =>
      rw [hfound] at hvalues
      exact .found (List.singleton_perm.1 hvalues).symm hread
  | missing hmissing =>
      rw [hmissing] at hvalues
      exact .missing (List.nil_perm.1 hvalues)

/-- What may be changed without a difference to what is read: members of a record are permuted, a
member of another name is put in, or a field is rearranged, wherever it stands. -/
inductive Rearranged (library : JsonLibrary) : Shape → JsonValue → JsonValue → Prop where
  | permuted {fields : List (String × Shape)} {members others : List (List Char × JsonValue)}
      (hperm : members.Perm others) :
      Rearranged library (.record fields) (.object members) (.object others)
  | inserted {fields : List (String × Shape)} (front behind : List (List Char × JsonValue))
      {body : List Char} {text : String} (hdecoded : library.decode? body = some text)
      (hother : text ∉ fields.map Prod.fst) {value : JsonValue}
      (hbody : (JsonValue.string body).WellFormed) (hvalue : value.WellFormed) :
      Rearranged library (.record fields) (.object (front ++ behind))
        (.object (front ++ (body, value) :: behind))
  | member {fields : List (String × Shape)} (front behind : List (List Char × JsonValue))
      {body : List Char} {name : String} {shape : Shape}
      (hdecoded : library.decode? body = some name) (hfield : (name, shape) ∈ fields)
      {value arranged : JsonValue} (h : Rearranged library shape value arranged) :
      Rearranged library (.record fields) (.object (front ++ (body, value) :: behind))
        (.object (front ++ (body, arranged) :: behind))
  | item {fields : List (String × Shape)} (front behind : List JsonValue) {name : String}
      {shape : Shape} (hfield : fields[front.length]? = some (name, shape))
      {value arranged : JsonValue} (h : Rearranged library shape value arranged) :
      Rearranged library (.record fields) (.array (front ++ value :: behind))
        (.array (front ++ arranged :: behind))
  | present {shape : Shape} {value arranged : JsonValue}
      (h : Rearranged library shape value arranged) :
      Rearranged library (.optional shape) value arranged

theorem Rearranged.ne_null (h : Rearranged library shape value arranged) :
    value ≠ .null ∧ arranged ≠ .null := by
  induction h with
  | present _ ih => exact ih
  | _ => exact ⟨nofun, nofun⟩

theorem Rearranged.wellFormed (h : Rearranged library shape value arranged)
    (hvalue : value.WellFormed) : arranged.WellFormed := by
  -- On the change; what is put in is well formed, and everything else was there before.
  induction h with
  | permuted hperm =>
      rw [JsonValue.wellFormed_object_iff] at hvalue ⊢
      exact fun member hmember => hvalue member (hperm.mem_iff.2 hmember)
  | inserted front behind _ _ hbody hinserted =>
      rw [JsonValue.wellFormed_object_iff] at hvalue ⊢
      exact JsonValue.soundMembers_middle_iff.2
        ⟨⟨JsonValue.wellFormed_string_iff.1 hbody, hinserted⟩, hvalue⟩
  | member front behind _ _ _ ih =>
      rw [JsonValue.wellFormed_object_iff, JsonValue.soundMembers_middle_iff] at hvalue ⊢
      obtain ⟨⟨hbody, hfield⟩, hmembers⟩ := hvalue
      exact ⟨⟨hbody, ih hfield⟩, hmembers⟩
  | item front behind _ _ ih =>
      simp only [JsonValue.wellFormed_array_iff, List.forall_mem_append, List.forall_mem_cons]
        at hvalue ⊢
      obtain ⟨hfront, hfield, hbehind⟩ := hvalue
      exact ⟨hfront, ih hfield, hbehind⟩
  | present _ ih => exact ih hvalue

private theorem eq_of_middle {α : Type} {front behind : List α} {a b : α}
    (h : front ++ a :: behind = [b]) : front = [] ∧ a = b ∧ behind = [] := by
  cases front with
  | nil =>
      obtain ⟨rfl, rfl⟩ := List.cons.inj h
      exact ⟨rfl, rfl, rfl⟩
  | cons first front => simp at h

/-- Each field is read as before if a member of its own is rearranged. -/
private theorem readsField_member {front behind : List (List Char × JsonValue)} {body : List Char}
    {name : String} {field : String × Shape} (hdecoded : library.decode? body = some name)
    (hshape : field.1 = name → library.read? field.2 arranged = library.read? field.2 value)
    (h : library.ReadsField (front ++ (body, value) :: behind) field datum) :
    library.ReadsField (front ++ (body, arranged) :: behind) field datum := by
  by_cases hname : name = field.1
  · subst hname
    have hvalues : ∀ own, library.valuesOf field.1 (front ++ (body, own) :: behind) =
        library.valuesOf field.1 front ++ own :: library.valuesOf field.1 behind := by
      intro own
      rw [valuesOf_append, valuesOf_cons_of_eq hdecoded]
    cases h with
    | found hfound hread =>
        rw [hvalues] at hfound
        obtain ⟨hfront, rfl, hbehind⟩ := eq_of_middle hfound
        refine .found ?_ ((hshape rfl).trans hread)
        rw [hvalues, hfront, hbehind, List.nil_append]
    | missing hmissing =>
        rw [hvalues] at hmissing
        simp at hmissing
  · refine readsField_of_perm (.of_eq ?_) h
    simp only [valuesOf_append, valuesOf_cons_of_ne hdecoded hname]

/-- A member of another name is not found by the field, so it makes no difference. -/
private theorem readsField_inserted {front behind : List (List Char × JsonValue)} {body : List Char}
    {text : String} {field : String × Shape} (hdecoded : library.decode? body = some text)
    (hne : text ≠ field.1) : library.ReadsField (front ++ behind) field datum ↔
      library.ReadsField (front ++ (body, value) :: behind) field datum := by
  have hvalues : library.valuesOf field.1 (front ++ (body, value) :: behind) =
      library.valuesOf field.1 (front ++ behind) := by
    rw [valuesOf_append, valuesOf_cons_of_ne hdecoded hne, valuesOf_append]
  exact ⟨readsField_of_perm (.of_eq hvalues.symm), readsField_of_perm (.of_eq hvalues)⟩

/-- Fields and items come in pairs, so an item is read as the field in its place. -/
private theorem zip_middle {front behind : List JsonValue} {field : String × Shape}
    (hfield : fields[front.length]? = some field) (own : JsonValue) :
    fields.zip (front ++ own :: behind) = (fields.take front.length).zip front ++
      (field, own) :: (fields.drop (front.length + 1)).zip behind := by
  obtain ⟨hlt, rfl⟩ := List.getElem?_eq_some_iff.1 hfield
  have htake : (fields.take front.length).length = front.length :=
    List.length_take_of_le (Nat.le_of_lt hlt)
  calc fields.zip (front ++ own :: behind)
      = (fields.take front.length ++ fields[front.length] :: fields.drop (front.length + 1)).zip
          (front ++ own :: behind) := by
        rw [List.getElem_cons_drop, List.take_append_drop]
    _ = _ := by rw [List.zip_append htake, List.zip_cons_cons]

private theorem readsItems_iff {entries : List ((String × Shape) × JsonValue)} {data : List Datum} :
    List.Forall₂ (fun entry datum => library.read? entry.1.2 entry.2 = some datum) entries data ↔
      entries.map (fun entry => library.read? entry.1.2 entry.2) = data.map some := by
  rw [← List.forall₂_eq_eq_eq, List.forall₂_map_left_iff, List.forall₂_map_right_iff]

namespace Rules

variable (hrules : library.Rules)

include hrules

/-- Objects whose fields are read alike are read alike. -/
private theorem read?_object_congr {others : List (List Char × JsonValue)}
    (hnames : (∀ member ∈ members, (library.decode? member.1).isSome = true) ↔
      ∀ member ∈ others, (library.decode? member.1).isSome = true)
    (hfields : ∀ field ∈ fields, ∀ datum,
      library.ReadsField members field datum ↔ library.ReadsField others field datum) :
    library.read? (.record fields) (.object others) =
      library.read? (.record fields) (.object members) := by
  have hall : ∀ data, List.Forall₂ (library.ReadsField others) fields data ↔
      List.Forall₂ (library.ReadsField members) fields data := by
    intro data
    rw [List.forall₂_iff_zip, List.forall₂_iff_zip]
    refine and_congr_right fun _ => ⟨fun h field datum hpair => ?_, fun h field datum hpair => ?_⟩
    · exact (hfields field (List.of_mem_zip hpair).1 datum).2 (h hpair)
    · exact (hfields field (List.of_mem_zip hpair).1 datum).1 (h hpair)
  refine Option.ext fun datum => ?_
  rw [hrules.read?_object_iff, hrules.read?_object_iff, hnames]
  simp only [hall]

/-- **Arrangement makes no difference.**  The same is read, or nothing is read, as before. -/
theorem read?_rearranged (hproper : shape.Proper) (h : library.Rearranged shape value arranged) :
    library.read? shape arranged = library.read? shape value := by
  induction h with
  | permuted hperm =>
      refine hrules.read?_object_congr ?_ fun field _ datum => ?_
      · simp only [hperm.mem_iff]
      · exact ⟨readsField_of_perm (valuesOf_perm hperm),
          readsField_of_perm (valuesOf_perm hperm).symm⟩
  | @inserted fields front behind body text hdecoded hother value _ _ =>
      refine hrules.read?_object_congr ?_ fun field hfield datum => ?_
      · simp only [List.perm_middle.mem_iff, List.forall_mem_cons, hdecoded, Option.isSome_some,
          true_and]
      · -- The member put in has none of the names of the record, so no field finds it.
        have hne : text ≠ field.1 := by
          rintro rfl
          exact hother (List.mem_map_of_mem hfield)
        exact readsField_inserted hdecoded hne
  | @member fields front behind body name shape hdecoded hfield _ _ _ ih =>
      cases hproper with
      | record _ hnodup hfields =>
          have hread := ih (hfields _ hfield)
          refine hrules.read?_object_congr ?_ fun field hmem datum => ?_
          · simp only [List.perm_middle.mem_iff, List.forall_mem_cons]
          · have hown : field.1 = name → field.2 = shape := fun hname =>
              congrArg Prod.snd (List.inj_on_of_nodup_map hnodup hmem hfield hname)
            refine ⟨readsField_member hdecoded fun hname => ?_,
              readsField_member hdecoded fun hname => ?_⟩
            · rw [hown hname, hread]
            · rw [hown hname, hread]
  | @item fields front behind name shape hfield _ _ _ ih =>
      cases hproper with
      | record _ _ hfields =>
          have hread := ih (hfields _ (List.mem_of_getElem? hfield))
          refine Option.ext fun datum => ?_
          rw [hrules.read?_array_iff, hrules.read?_array_iff]
          simp only [readsItems_iff, zip_middle hfield, List.map_append, List.map_cons, hread,
            List.length_append, List.length_cons]
  | present h ih =>
      cases hproper with
      | optional hshape _ =>
          obtain ⟨hvalue, harranged⟩ := h.ne_null
          rw [hrules.read?_optional _ hvalue, hrules.read?_optional _ harranged, ih hshape]

end Rules

end JsonLibrary

/-! ## Texts of a format -/

section Formats

variable {α : Type} {format : Format α} {inRange : α → Prop} {library : JsonLibrary}

/-- The data of a format that fit its shape are the data of the values in range. -/
structure Format.Faithful (format : Format α) (inRange : α → Prop) : Prop where
  proper : format.shape.Proper
  fits : ∀ a, inRange a → format.shape.Fits (format.toDatum a)
  ofDatum?_toDatum : ∀ a, format.ofDatum? (format.toDatum a) = some a
  inRange : ∀ datum a, format.shape.Fits datum → format.ofDatum? datum = some a → inRange a

namespace JsonLibrary

/-- What is written of a value in range is read back.  What is read from any text is in range, so it can
be written and read again. -/
structure RoundTrips (library : JsonLibrary) (format : Format α) (inRange : α → Prop) : Prop where
  read_write : ∀ a, inRange a → library.readText? format (library.write format a) = some a
  inRange_of_read : ∀ text a, library.readText? format text = some a → inRange a
  read_again : ∀ text a, library.readText? format text = some a →
    library.readText? format (library.write format a) = some a

/-- However often the value of a text is rearranged, there is a text of the value that comes out, and
every such text is read as the first one. -/
structure Disregards (library : JsonLibrary) (format : Format α) : Prop where
  written : ∀ text value arranged, library.parse? text = some value →
    Relation.ReflTransGen (library.Rearranged format.shape) value arranged →
      library.parse? (library.print arranged) = some arranged
  same : ∀ text value text' arranged, library.parse? text = some value →
    Relation.ReflTransGen (library.Rearranged format.shape) value arranged →
      library.parse? text' = some arranged →
        library.readText? format text' = library.readText? format text

theorem Rules.roundTrips (hrules : library.Rules) (hfaithful : format.Faithful inRange) :
    library.RoundTrips format inRange := by
  have hback : ∀ a, inRange a → library.readText? format (library.write format a) = some a := by
    intro a ha
    have hfits := hfaithful.fits a ha
    have htext := hrules.parse?_print (hrules.wellFormed_written hfaithful.proper hfits)
    rw [readText?, write, htext, Option.bind_some, hrules.read?_written hfaithful.proper hfits]
    exact hfaithful.ofDatum?_toDatum a
  have hrange : ∀ text a, library.readText? format text = some a → inRange a := by
    intro text a ha
    obtain ⟨value, -, hvalue⟩ := Option.bind_eq_some_iff.1 ha
    obtain ⟨datum, hdatum, hof⟩ := Option.bind_eq_some_iff.1 hvalue
    exact hfaithful.inRange datum a (hrules.fits_of_read? hfaithful.proper hdatum) hof
  exact ⟨hback, hrange, fun text a ha => hback a (hrange text a ha)⟩

theorem Rules.disregards (hrules : library.Rules) (hproper : format.shape.Proper) :
    library.Disregards format := by
  constructor
  · intro text value arranged htext harranged
    refine hrules.parse?_print ?_
    induction harranged with
    | refl => exact hrules.wellFormed_of_parse? htext
    | tail _ hstep ih => exact hstep.wellFormed ih
  · intro text value text' arranged htext harranged htext'
    have hsame : library.read? format.shape arranged = library.read? format.shape value := by
      clear htext'
      induction harranged with
      | refl => rfl
      | tail _ hstep ih => exact (hrules.read?_rearranged hproper hstep).trans ih
    rw [readText?, readText?, htext, htext', Option.bind_some, Option.bind_some, hsame]

end JsonLibrary

end Formats

end ConstraintSearch
