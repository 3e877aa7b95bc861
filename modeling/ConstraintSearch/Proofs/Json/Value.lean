import ConstraintSearch.Json.Value
import ConstraintSearch.Proofs.Json.Token

/-!
# Values and their texts

A value is well formed when its numbers, its strings and its names are spelled as JSON allows.  These
are exactly the values that texts stand for: a text that is read stands for a well-formed value
(`wellFormed_of_parse?`), and a well-formed value is read back from its own text (`parse?_write`).

Between value and text are the tokens of the value (`tokens`).  Its text is cut into them
(`WellFormed.cuts`), and the reading machine makes the value of them again (`readsTo_tokens`).

The two directions use two inductions.  Written texts are followed along the value: behind any context
of opened arrays and objects, its tokens are read and the value is handed on (`ReadsTo`).  Any other
text is followed along its tokens: `Reading.Sound` says that whatever has been read so far is well
formed, in the value at hand and in all that are opened.
-/

namespace ConstraintSearch.JsonValue

open Json (Token)

mutual

/-- The tokens of a value. -/
def tokens : JsonValue → List Token
  | .null => [.null]
  | .bool value => [.bool value]
  | .number literal => [.number literal]
  | .string body => [.string body]
  | .array items => .openBracket :: ([.comma].intercalate (itemTokens items) ++ [.closeBracket])
  | .object members =>
      .openBrace :: ([.comma].intercalate (memberTokens members) ++ [.closeBrace])

/-- The tokens of each item of an array. -/
def itemTokens : List JsonValue → List (List Token)
  | [] => []
  | item :: rest => item.tokens :: itemTokens rest

/-- The tokens of each member of an object. -/
def memberTokens : List (List Char × JsonValue) → List (List Token)
  | [] => []
  | (name, value) :: rest => (.string name :: .colon :: value.tokens) :: memberTokens rest

end

theorem itemTokens_eq (items : List JsonValue) : itemTokens items = items.map tokens := by
  induction items with
  | nil => rfl
  | cons item items ih => rw [itemTokens, ih, List.map_cons]

/-- The tokens of one member of an object. -/
def tokensOfMember (member : List Char × JsonValue) : List Token :=
  .string member.1 :: .colon :: member.2.tokens

theorem memberTokens_eq (members : List (List Char × JsonValue)) :
    memberTokens members = members.map tokensOfMember := by
  induction members with
  | nil => rfl
  | cons member members ih =>
      rw [memberTokens, ih, List.map_cons]
      rfl

theorem writeItems_eq (items : List JsonValue) : writeItems items = items.map write := by
  induction items with
  | nil => rfl
  | cons item items ih => rw [writeItems, ih, List.map_cons]

theorem writeMembers_eq (members : List (List Char × JsonValue)) :
    writeMembers members = members.map fun member => marked member.1 ++ ":" ++ member.2.write := by
  induction members with
  | nil => rfl
  | cons member members ih => rw [writeMembers, ih, List.map_cons]

/-! ## Texts are cut into the tokens -/

theorem toList_marked (body : List Char) : (marked body).toList = '"' :: (body ++ ['"']) := by
  simp [marked]

theorem cutsCleanly_marked {body : List Char} (h : (Json.parts? body).isSome = true) :
    Json.CutsCleanly (marked body).toList [.string body] := by
  rw [toList_marked]
  exact Json.cutsCleanly_string h

/-- Texts in a row, between two marks. -/
private theorem cuts_within {opening closing : Char} {first last : Token} {texts : List Char}
    {cut : List Token} (hopening : Json.mark? opening = some first)
    (hclosing : Json.mark? closing = some last) (h : Json.Cuts texts cut) :
    Json.Cuts (opening :: (texts ++ [closing])) (first :: (cut ++ [last])) :=
  ((Json.cutsCleanly_mark hopening).append (h.mark hclosing)).cuts

theorem WellFormed.cuts {value : JsonValue} (h : value.WellFormed) :
    Json.Cuts value.write.toList value.tokens := by
  induction h with
  | null => exact Json.cuts_word (by decide) (Json.wordChar_of_all (by decide)) rfl
  | bool value =>
      cases value with
      | true => exact Json.cuts_word (by decide) (Json.wordChar_of_all (by decide)) rfl
      | false => exact Json.cuts_word (by decide) (Json.wordChar_of_all (by decide)) rfl
  | number literal hliteral =>
      show Json.Cuts (String.ofList literal).toList [.number literal]
      rw [String.toList_ofList]
      exact Json.cuts_number hliteral
  | string body hbody => exact (cutsCleanly_marked hbody).cuts
  | array items _ ih =>
      have htext : (write (.array items)).toList =
          '[' :: ([','].intercalate (items.map fun item => item.write.toList) ++ [']']) := by
        simp [write, writeItems_eq, String.toList_intercalate, Function.comp_def]
      rw [htext, tokens, itemTokens_eq]
      exact cuts_within rfl rfl (Json.cuts_intercalate rfl ih)
  | object members hnames _ ih =>
      have htext : (write (.object members)).toList =
          '\x7b' :: ([','].intercalate (members.map fun member =>
            (marked member.1).toList ++ (':' :: member.2.write.toList)) ++ ['\x7d']) := by
        simp [write, writeMembers_eq, String.toList_intercalate, Function.comp_def]
      -- A member is its name, a colon and its value; the colon ends nothing, since a string is
      -- complete with its second mark.
      have hmember : ∀ member ∈ members, Json.Cuts
          ((marked member.1).toList ++ (':' :: member.2.write.toList)) (tokensOfMember member) := by
        intro member hmem
        have hcolon : Json.CutsCleanly [':'] [.colon] := Json.cutsCleanly_mark rfl
        exact (cutsCleanly_marked (hnames member hmem)).cuts_append
          (hcolon.cuts_append (ih member hmem))
      rw [htext, tokens, memberTokens_eq]
      exact cuts_within rfl rfl (Json.cuts_intercalate rfl hmember)

/-! ## The tokens are read -/

/-- Where a value is expected, the tokens are read as the value; they do not end an array. -/
structure ReadsTo (tokens : List Token) (value : JsonValue) : Prop where
  begins : tokens.head? ≠ some .closeBracket
  read : ∀ opened, tokens.foldlM Reading.read { opened, expected := .value } =
    some { opened, expected := .continuation value }

/-- The first item of an array is read as any other value. -/
theorem ReadsTo.read_item {tokens : List Token} {value : JsonValue} (h : ReadsTo tokens value)
    {expected : Expected} (hexpected : expected = .value ∨ expected = .firstItem)
    (opened : List Opened) : tokens.foldlM Reading.read { opened, expected } =
      some { opened, expected := .continuation value } := by
  rcases hexpected with rfl | rfl
  · exact h.read opened
  · cases tokens with
    | nil => exact absurd (h.read opened) nofun
    | cons token tokens =>
        cases token with
        | closeBracket => exact absurd rfl h.begins
        | _ => exact h.read opened

/-- The items of an array behind some others, up to its end. -/
theorem foldlM_read_items {items : List JsonValue} (hnonempty : items ≠ [])
    (h : ∀ item ∈ items, ReadsTo item.tokens item) {expected : Expected}
    (hexpected : expected = .value ∨ expected = .firstItem) (done : List JsonValue)
    (opened : List Opened) :
    ([Token.comma].intercalate (items.map tokens) ++ [Token.closeBracket]).foldlM Reading.read
        { opened := .array done :: opened, expected } =
      some { opened, expected := .continuation (.array (done.reverse ++ items)) } := by
  induction items generalizing done expected with
  | nil => exact absurd rfl hnonempty
  | cons item items ih =>
      obtain ⟨hitem, hitems⟩ := List.forall_mem_cons.1 h
      cases items with
      | nil =>
          rw [List.map_singleton, List.intercalate_singleton, List.foldlM_append,
            hitem.read_item hexpected]
          show some _ = _
          rw [List.reverse_cons]
      | cons other items =>
          have hrest := ih nofun hitems (.inl rfl) (item :: done)
          rw [List.map_cons] at hrest ⊢
          rw [List.map_cons, List.intercalate_cons_cons, List.append_assoc, List.append_assoc,
            List.foldlM_append, hitem.read_item hexpected]
          refine hrest.trans ?_
          rw [List.reverse_cons, List.append_assoc]
          rfl

/-- A member of an object behind some others. -/
theorem ReadsTo.read_member {member : List Char × JsonValue}
    (h : ReadsTo member.2.tokens member.2) {done : List (List Char × JsonValue)}
    {expected : Expected} (hexpected : expected = .name done ∨ done = [] ∧ expected = .firstName)
    (opened : List Opened) : (tokensOfMember member).foldlM Reading.read { opened, expected } =
      some { opened := .object done member.1 :: opened, expected := .continuation member.2 } := by
  rcases hexpected with rfl | ⟨rfl, rfl⟩
  · exact h.read (.object done member.1 :: opened)
  · exact h.read (.object [] member.1 :: opened)

/-- The members of an object behind some others, up to its end. -/
theorem foldlM_read_members {members : List (List Char × JsonValue)} (hnonempty : members ≠ [])
    (h : ∀ member ∈ members, ReadsTo member.2.tokens member.2)
    (done : List (List Char × JsonValue)) {expected : Expected}
    (hexpected : expected = .name done ∨ done = [] ∧ expected = .firstName)
    (opened : List Opened) :
    ([Token.comma].intercalate (members.map tokensOfMember) ++ [Token.closeBrace]).foldlM
        Reading.read { opened, expected } =
      some { opened, expected := .continuation (.object (done.reverse ++ members)) } := by
  induction members generalizing done expected with
  | nil => exact absurd rfl hnonempty
  | cons member members ih =>
      obtain ⟨hmember, hmembers⟩ := List.forall_mem_cons.1 h
      cases members with
      | nil =>
          rw [List.map_singleton, List.intercalate_singleton, List.foldlM_append,
            hmember.read_member hexpected]
          show some _ = _
          rw [List.reverse_cons]
      | cons other members =>
          have hrest := ih nofun hmembers (member :: done) (.inl rfl)
          rw [List.map_cons] at hrest ⊢
          rw [List.map_cons, List.intercalate_cons_cons, List.append_assoc, List.append_assoc,
            List.foldlM_append, hmember.read_member hexpected]
          refine hrest.trans ?_
          rw [List.reverse_cons, List.append_assoc]
          rfl

theorem readsTo_tokens {value : JsonValue} (h : value.WellFormed) : ReadsTo value.tokens value := by
  induction h with
  | null => exact ⟨nofun, fun _ => rfl⟩
  | bool value => exact ⟨nofun, fun _ => rfl⟩
  | number literal _ => exact ⟨nofun, fun _ => rfl⟩
  | string body _ => exact ⟨nofun, fun _ => rfl⟩
  | array items _ ih =>
      rw [tokens, itemTokens_eq]
      refine ⟨nofun, fun opened => ?_⟩
      by_cases hnonempty : items = []
      · subst hnonempty
        rfl
      · exact foldlM_read_items hnonempty ih (.inr rfl) [] opened
  | object members _ _ ih =>
      rw [tokens, memberTokens_eq]
      refine ⟨nofun, fun opened => ?_⟩
      by_cases hnonempty : members = []
      · subst hnonempty
        rfl
      · exact foldlM_read_members hnonempty ih [] (.inr ⟨rfl, rfl⟩) opened

/-- A well-formed value is read back from its text. -/
theorem parse?_write {value : JsonValue} (h : value.WellFormed) :
    parse? value.write = some value := by
  rw [parse?, h.cuts.tokens?_eq]
  show ofTokens? value.tokens = some value
  rw [ofTokens?, (readsTo_tokens h).read []]
  rfl

/-! ## Values of any text -/

theorem SoundMembers.cons {members : List (List Char × JsonValue)} (h : SoundMembers members)
    {name : List Char} (hname : (Json.parts? name).isSome = true) {value : JsonValue}
    (hvalue : value.WellFormed) : SoundMembers ((name, value) :: members) :=
  List.forall_mem_cons.2 ⟨⟨hname, hvalue⟩, h⟩

/-- What an array or an object has so far is well formed. -/
def Opened.Sound : Opened → Prop
  | .array items => ∀ item ∈ items, item.WellFormed
  | .object members name => SoundMembers members ∧ (Json.parts? name).isSome = true

/-- What is known by then is well formed. -/
def Expected.Sound : Expected → Prop
  | .value | .firstItem | .firstName => True
  | .name members => SoundMembers members
  | .colon members next => SoundMembers members ∧ (Json.parts? next).isSome = true
  | .continuation complete => complete.WellFormed

/-- Everything that has been read is well formed. -/
structure Reading.Sound (reading : Reading) : Prop where
  opened : ∀ entry ∈ reading.opened, entry.Sound
  expected : reading.expected.Sound

theorem wellFormed_array {items : List JsonValue} (h : ∀ item ∈ items, item.WellFormed) :
    (array items.reverse).WellFormed :=
  .array _ fun item hitem => h item (List.mem_reverse.1 hitem)

theorem wellFormed_object {members : List (List Char × JsonValue)} (h : SoundMembers members) :
    (object members.reverse).WellFormed :=
  wellFormed_object_iff.2 fun member hmember => h member (List.mem_reverse.1 hmember)

namespace Reading

variable {opened : List Opened} {token : Token} {next : Reading}

theorem sound_beginValue (hopened : ∀ entry ∈ opened, entry.Sound) (htoken : token.WellFormed)
    (hnext : beginValue opened token = some next) : next.Sound := by
  unfold beginValue at hnext
  split at hnext <;> cases hnext
  · exact ⟨hopened, .null⟩
  · exact ⟨hopened, .bool _⟩
  · exact ⟨hopened, .number _ htoken⟩
  · exact ⟨hopened, .string _ htoken⟩
  · exact ⟨List.forall_mem_cons.2 ⟨(fun _ hnone => nomatch hnone), hopened⟩, trivial⟩
  · exact ⟨hopened, trivial⟩

theorem sound_continueWith (hopened : ∀ entry ∈ opened, entry.Sound) {complete : JsonValue}
    (hcomplete : complete.WellFormed) (hnext : continueWith opened complete token = some next) :
    next.Sound := by
  unfold continueWith at hnext
  split at hnext <;> cases hnext
  -- In every case the innermost entry is taken up, and the value joins what it has so far.
  all_goals obtain ⟨hentry, hrest⟩ := List.forall_mem_cons.1 hopened
  · exact ⟨List.forall_mem_cons.2 ⟨List.forall_mem_cons.2 ⟨hcomplete, hentry⟩, hrest⟩, trivial⟩
  · exact ⟨hrest, wellFormed_array (List.forall_mem_cons.2 ⟨hcomplete, hentry⟩)⟩
  · exact ⟨hrest, hentry.1.cons hentry.2 hcomplete⟩
  · exact ⟨hrest, wellFormed_object (hentry.1.cons hentry.2 hcomplete)⟩

theorem Sound.read {reading : Reading} (h : reading.Sound) (htoken : token.WellFormed)
    (hnext : reading.read token = some next) : next.Sound := by
  obtain ⟨opened, expected⟩ := reading
  obtain ⟨hopened, hexpected⟩ := h
  unfold Reading.read at hnext
  simp only at hnext
  split at hnext
  · exact sound_beginValue hopened htoken hnext
  · cases hnext
    exact ⟨fun entry hentry => hopened entry (List.mem_of_mem_drop hentry),
      .array [] fun _ hnone => nomatch hnone⟩
  · exact sound_beginValue hopened htoken hnext
  · cases hnext
    exact ⟨hopened, wellFormed_object_iff.2 fun _ hnone => nomatch hnone⟩
  · cases hnext
    exact ⟨hopened, (fun _ hnone => nomatch hnone), htoken⟩
  · cases hnext
    exact ⟨hopened, hexpected, htoken⟩
  · cases hnext
    exact ⟨List.forall_mem_cons.2 ⟨hexpected, hopened⟩, trivial⟩
  · exact sound_continueWith hopened hexpected hnext
  · cases hnext

theorem Sound.finish {reading : Reading} (h : reading.Sound) {value : JsonValue}
    (hvalue : reading.finish = some value) : value.WellFormed := by
  obtain ⟨_, hexpected⟩ := h
  unfold Reading.finish at hvalue
  split at hvalue
  · rename_i hcontinuation
    cases hvalue
    rw [hcontinuation] at hexpected
    exact hexpected
  · cases hvalue

end Reading

/-- Whatever text is read, it stands for a well-formed value. -/
theorem wellFormed_of_parse? {text : String} {value : JsonValue} (h : parse? text = some value) :
    value.WellFormed := by
  obtain ⟨tokens, htokens, hvalue⟩ := Option.bind_eq_some_iff.1 h
  obtain ⟨reading, hreading, hfinish⟩ := Option.bind_eq_some_iff.1 hvalue
  have hstart : Reading.Sound {} := ⟨(fun _ hnone => nomatch hnone), trivial⟩
  have hstep : ∀ token ∈ tokens, ∀ state next, Reading.Sound state →
      state.read token = some next → next.Sound :=
    fun token htoken _ _ hsound => hsound.read (Json.wellFormed_of_tokens? htokens token htoken)
  exact (Json.foldlM_keeps hstep hstart hreading).finish hfinish

end ConstraintSearch.JsonValue
