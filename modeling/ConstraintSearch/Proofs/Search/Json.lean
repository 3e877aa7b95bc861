import ConstraintSearch.Proofs.Json.Compact
import ConstraintSearch.Search.Json

/-!
# Limits and outcomes are kept as JSON

What is written of limits, counters, a status or an outcome is read back as the same
(`RoundTrips`), as long as every number is a word; and only such values are read from any text.
Reading does not depend on the order of the members of an object, nor on members of other names
(`Disregards`).  For an outcome this holds of its own members and of those of its counters, because
its shape is nested as it is.

All this holds of every library that keeps the rules, since the four formats are faithful: the data
that fit a shape are those of the values whose numbers are words.  So there is one lemma for each
format, and nothing in them is about texts.
-/

namespace ConstraintSearch

open JsonLibrary (RoundTrips Disregards)

/-- Whether a name is plain can be computed. -/
theorem plainName_of_all {name : String}
    (h : name.toList.all (fun c => c ≠ '"' ∧ c ≠ '\\' ∧ 0x20 ≤ c.toNat) = true) : PlainName name :=
  fun c hc => of_decide_eq_true (List.all_eq_true.1 h c hc)

/-- A record whose fields have plain names that differ. -/
theorem Shape.proper_record {fields : List (String × Shape)}
    (hplain : fields.all (fun field => field.1.toList.all fun c =>
      c ≠ '"' ∧ c ≠ '\\' ∧ 0x20 ≤ c.toNat) = true)
    (hnodup : (fields.map Prod.fst).Nodup) (hfields : ∀ field ∈ fields, field.2.Proper) :
    (Shape.record fields).Proper :=
  .record (fun field hfield => plainName_of_all (List.all_eq_true.1 hplain field hfield)) hnodup
    hfields

/-! ## Limits -/

namespace Config

/-- Every number is a word. -/
structure InWords (config : Config) : Prop where
  nodeLimit : ∀ n ∈ config.nodeLimit, n < wordCount
  timeLimit : ∀ n ∈ config.timeLimit, n < wordCount
  checkInterval : config.checkInterval < wordCount

end Config

/-- A limit that is a word, or none, fits. -/
theorem Datum.fits_ofOption {limit : Option Nat} (h : ∀ n ∈ limit, n < wordCount) :
    (Shape.optional .word).Fits (.ofOption limit) := by
  cases limit with
  | none => exact .absent
  | some n => exact .present (.word (h n rfl))

theorem Datum.optionalWord?_ofOption (limit : Option Nat) :
    (ofOption limit).optionalWord? = some limit := by
  cases limit <;> rfl

theorem Datum.lt_of_optionalWord? {datum : Datum} {limit : Option Nat}
    (hfits : (Shape.optional .word).Fits datum) (hlimit : datum.optionalWord? = some limit) :
    ∀ n ∈ limit, n < wordCount := by
  cases hfits with
  | absent =>
      cases hlimit
      nofun
  | present h =>
      cases h with
      | word h =>
          cases hlimit
          rintro _ ⟨⟩
          exact h

theorem Config.faithful : Config.format.Faithful Config.InWords where
  proper := by
    refine Shape.proper_record (by decide) (by decide) ?_
    simp only [List.forall_mem_cons, List.not_mem_nil, false_implies, implies_true, and_true]
    exact ⟨.optional .word nofun, .optional .word nofun, .word⟩
  fits config h := Shape.fits_record
    (.cons (Datum.fits_ofOption h.nodeLimit) (.cons (Datum.fits_ofOption h.timeLimit)
      (.cons (.word h.checkInterval) .nil)))
  ofDatum?_toDatum config := by
    simp only [Config.format, Datum.optionalWord?_ofOption, Option.bind_eq_bind, Option.bind_some,
      Option.pure_def]
  inRange datum config hfits hconfig := by
    obtain ⟨data, rfl, hdata⟩ := hfits.exists_data
    rcases hdata with _ | ⟨hnodes, _ | ⟨htime, _ | ⟨hinterval, _ | _⟩⟩⟩
    obtain ⟨n, rfl, hn⟩ := hinterval.exists_word
    simp only [Config.format, Option.bind_eq_bind, Option.bind_eq_some_iff, Option.pure_def,
      Option.some.injEq] at hconfig
    obtain ⟨nodeLimit, hnodeLimit, timeLimit, htimeLimit, rfl⟩ := hconfig
    exact ⟨Datum.lt_of_optionalWord? hnodes hnodeLimit, Datum.lt_of_optionalWord? htime htimeLimit, hn⟩

/-- Without the limits, with a member of another name, and with the largest word. -/
example : (Json.read? Config.format.shape (.object
    [("note".toList, .array [.string "\\ud800".toList, .number "1e9".toList]),
      ("check\\u005finterval".toList, .number "18446744073709551615".toList)])).bind
    Config.format.ofDatum? = some { checkInterval := 18446744073709551615 } := by cbv

/-! ## Counters -/

/-- Every number is a word. -/
structure Stats.InWords (stats : Stats) : Prop where
  nodes : stats.nodes < wordCount
  checks : stats.checks < wordCount
  backtracks : stats.backtracks < wordCount
  maxDepth : stats.maxDepth < wordCount
  elapsed : stats.elapsed < wordCount

theorem Stats.faithful : Stats.format.Faithful Stats.InWords where
  proper := by
    refine Shape.proper_record (by decide) (by decide) ?_
    simp only [List.forall_mem_cons, List.not_mem_nil, false_implies, implies_true, and_true]
    exact ⟨.word, .word, .word, .word, .word⟩
  fits stats h := Shape.fits_record
    (.cons (.word h.nodes) (.cons (.word h.checks) (.cons (.word h.backtracks)
      (.cons (.word h.maxDepth) (.cons (.word h.elapsed) .nil)))))
  ofDatum?_toDatum _ := rfl
  inRange datum stats hfits hstats := by
    obtain ⟨data, rfl, hdata⟩ := hfits.exists_data
    rcases hdata with
      _ | ⟨hnodes, _ | ⟨hchecks, _ | ⟨hbacktracks, _ | ⟨hdepth, _ | ⟨helapsed, _ | _⟩⟩⟩⟩⟩
    obtain ⟨nodes, rfl, hnodesLt⟩ := hnodes.exists_word
    obtain ⟨checks, rfl, hchecksLt⟩ := hchecks.exists_word
    obtain ⟨backtracks, rfl, hbacktracksLt⟩ := hbacktracks.exists_word
    obtain ⟨maxDepth, rfl, hdepthLt⟩ := hdepth.exists_word
    obtain ⟨elapsed, rfl, helapsedLt⟩ := helapsed.exists_word
    obtain rfl := Option.some.inj hstats
    exact ⟨hnodesLt, hchecksLt, hbacktracksLt, hdepthLt, helapsedLt⟩

/-! ## Statuses -/

theorem Status.mem_all (status : Status) : status ∈ Status.all := by
  cases status <;> decide

theorem Status.faithful : Status.format.Faithful fun _ => True where
  proper := by
    refine .choice fun name hname => ?_
    obtain ⟨status, -, rfl⟩ := List.mem_map.1 hname
    cases status <;> exact plainName_of_all (by decide)
  fits status _ := .chosen (List.mem_map_of_mem status.mem_all)
  ofDatum?_toDatum := Status.ofName?_name
  inRange _ _ _ _ := trivial

/-! ## Outcomes -/

theorem Result.faithful : Result.format.Faithful fun result => result.stats.InWords where
  proper := by
    refine Shape.proper_record (by decide) (by decide) ?_
    simp only [List.forall_mem_cons, List.not_mem_nil, false_implies, implies_true, and_true]
    exact ⟨Status.faithful.proper, Stats.faithful.proper⟩
  fits result h := Shape.fits_record
    (.cons (Status.faithful.fits _ trivial) (.cons (Stats.faithful.fits _ h) .nil))
  ofDatum?_toDatum result := by
    simp only [Result.format, Status.faithful.ofDatum?_toDatum, Stats.faithful.ofDatum?_toDatum,
      Option.bind_eq_bind, Option.bind_some, Option.pure_def]
  inRange datum result hfits hresult := by
    obtain ⟨data, rfl, hdata⟩ := hfits.exists_data
    rcases hdata with _ | ⟨hstatus, _ | ⟨hstats, _ | _⟩⟩
    simp only [Result.format, Option.bind_eq_bind, Option.bind_eq_some_iff, Option.pure_def,
      Option.some.injEq] at hresult
    obtain ⟨status, -, stats, hread, rfl⟩ := hresult
    exact Stats.faithful.inRange _ _ hstats hread

/-! ## All four formats -/

/-- **Limits and outcomes as JSON.**  Take any library that keeps the rules of texts, of writing and of
reading.  Limits, counters, statuses and outcomes whose numbers are words are read back from what is
written of them, and so is everything that any text is read as.  Texts are read as the same, or refused
alike, however the members of the objects of a record are permuted and whichever members of other
names are put in, those of an outcome and those of its counters. -/
theorem json_round_trips (library : JsonLibrary) (hrules : library.Rules) :
    (library.RoundTrips Config.format Config.InWords ∧
      library.RoundTrips Stats.format Stats.InWords ∧
      library.RoundTrips Status.format (fun _ => True) ∧
      library.RoundTrips Result.format fun result => result.stats.InWords) ∧
    library.Disregards Config.format ∧
    library.Disregards Stats.format ∧
    library.Disregards Result.format :=
  ⟨⟨hrules.roundTrips Config.faithful, hrules.roundTrips Stats.faithful,
      hrules.roundTrips Status.faithful, hrules.roundTrips Result.faithful⟩,
    hrules.disregards Config.faithful.proper, hrules.disregards Stats.faithful.proper,
    hrules.disregards Result.faithful.proper⟩

/-- With the library for compact texts, an outcome with the largest numbers is read back, also when its
counters come first and a member of another name stands among them. -/
theorem json_round_trips_largest :
    let largest : Result :=
      { status := .nodeLimit, stats := { nodes := wordCount - 1, elapsed := wordCount - 1 } }
    let note : List Char × JsonValue := ("note".toList, .array [.null])
    let status : List Char × JsonValue := ("status".toList, .ofName "NodeLimit")
    let counters : List (List Char × JsonValue) :=
      [("nodes".toList, .ofNat (wordCount - 1)), ("consistency_checks".toList, .ofNat 0),
        ("backtracks".toList, .ofNat 0), ("max_depth".toList, .ofNat 0),
        ("elapsed_ms".toList, .ofNat (wordCount - 1))]
    let arranged : JsonValue := .object [("stats".toList, .object (note :: counters)), status]
    Json.compact.Rules ∧
      Json.compact.readText? Result.format (Json.compact.write Result.format largest) =
        some largest ∧
      Json.compact.readText? Result.format (Json.compact.print arranged) = some largest := by
  intro largest note status counters arranged
  obtain ⟨⟨-, -, -, hround⟩, -, -, hdisregards⟩ := json_round_trips Json.compact Json.compact_rules
  have hwords : largest.stats.InWords := ⟨by decide, by decide, by decide, by decide, by decide⟩
  have hread := hround.read_write largest hwords
  let stats : List Char × JsonValue := ("stats".toList, .object counters)
  have htext : Json.compact.parse? (Json.compact.write Result.format largest) =
      some (.object [status, stats]) :=
    Json.compact_rules.parse?_print (Json.compact_rules.wellFormed_written Result.faithful.proper
      (Result.faithful.fits largest hwords))
  have hnote : (JsonValue.array [.null]).WellFormed :=
    JsonValue.wellFormed_array_iff.2 (List.forall_mem_singleton.2 .null)
  have hname : PlainName "note" := plainName_of_all (by decide)
  have hstats : PlainName "stats" := plainName_of_all (by decide)
  -- First the note is put in among the counters, and then the counters are moved to the front.
  have hinserted : Json.compact.Rearranged Stats.format.shape (.object counters)
      (.object (note :: counters)) :=
    .inserted [] counters (Json.decode?_plain hname) (by decide)
      (JsonValue.wellFormed_ofName hname) hnote
  have hmember : Json.compact.Rearranged Result.format.shape (.object [status, stats])
      (.object [status, ("stats".toList, .object (note :: counters))]) :=
    .member [status] [] (Json.decode?_plain hstats)
      (List.mem_cons_of_mem _ List.mem_cons_self) hinserted
  have hchain := (Relation.ReflTransGen.single hmember).tail (.permuted (.swap _ _ _))
  refine ⟨Json.compact_rules, hread, ?_⟩
  rw [hdisregards.same _ _ _ _ htext hchain (hdisregards.written _ _ _ htext hchain)]
  exact hread

end ConstraintSearch
