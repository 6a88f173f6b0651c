import FleetMatch.Message.Update
import FleetMatch.Proofs.Json.Records
import FleetMatch.Proofs.Text.Blank

/-!
# Updates survive their JSON form

An update is read from every object that describes it: the members `lon`, `lat` and `taxiId` may stand in any
order, be written in any way, and have others between them.  What is written for an update is one such object.

* `ClientId.JsonText`: the texts of an identifier; `ClientId.reader_text` — its kind is never mistaken.
* `PositionUpdate.Describes`: the members of an object that stands for an update.
* `PositionUpdate.fills` — the fields of an update are read one by one.
* `PositionUpdate.parse_described` — what describes an update is read as the update.
-/

set_option autoImplicit false

namespace FleetMatch

open Json

namespace ClientId

/-- A JSON text of an identifier: an integer for a number, and a string for a name. -/
inductive JsonText : ClientId → List Char → Prop
  | number {n : Int64} {t : List Char} : IntegerText t n.toInt → JsonText (.number n) t
  | name {s : String} {letters : List Char} : Spelled letters s.toList →
      JsonText (.name s) ('"' :: (letters ++ ['"']))

theorem fits64_toInt (n : Int64) : FleetMatch.Numeral.fits64 n.toInt = true := by
  have low := n.le_toInt
  have high := n.toInt_lt
  rw [fits64_iff]
  omega

/-- The value that is written for an identifier stands for it. -/
theorem ofJson?_toJson (id : ClientId) : ofJson? id.toJson = some id := by
  cases id with
  | number n =>
    show (if FleetMatch.Numeral.fitsInt64 n.toInt then some (number (Int64.ofInt n.toInt)) else none) = _
    rw [if_pos (FleetMatch.Numeral.fitsInt64_toInt n), Int64.ofInt_toInt]
  | name s => rfl

/-- **An identifier is read from each of its texts**, an integer as a number and a string as a name, even
if the string looks like an integer. -/
theorem reader_text {id : ClientId} {gap t rest : List Char} {depth : ℕ} (hgap : IsGap gap)
    (h : JsonText id t) (stops : Stops rest) : Yields (reader depth (gap ++ (t ++ rest))) id rest := by
  have read : Yields (value (.full .stepwise) (some depth) (gap ++ (t ++ rest))) id.toJson rest := by
    cases h with
    | @number n t text =>
      obtain ⟨m, text, meant⟩ := text.numeral
      exact value_number hgap text (scanNumber_text text (meant (fits64_toInt n) _) stops)
    | @name s letters spelled =>
      have string : Yields (value (.full .stepwise) (some depth) (gap ++ '"' :: (letters ++ '"' :: rest)))
          (.string (String.ofList s.toList)) rest := value_string hgap (stringTail_spelled spelled rest)
      rw [String.ofList_toList] at string
      rwa [enclosed_append]
  obtain ⟨_, read⟩ := read
  rw [reader, read]
  simp only [ofJson?_toJson]
  exact ⟨_, rfl⟩

/-- What is written for an identifier is a text of it. -/
theorem jsonText_print (id : ClientId) : JsonText id id.toJson.print := by
  cases id with
  | number n =>
    rw [toJson, Value.ofInt, Value.print]
    exact .number (integerText_ofInt n.toInt)
  | name s =>
    rw [toJson, Value.print]
    exact .name (spelled_escaped s.toList)

end ClientId

namespace PositionUpdate

variable {u : PositionUpdate} {ms : List (String × List Char)}

/-- The member belongs to an update. -/
def isOwn (m : String × List Char) : Bool := m.1 = "lon" || m.1 = "lat" || m.1 = "taxiId"

/-- Members that stand for an update: `lon`, `lat` and `taxiId` are there once each with its values, in any
order, and the others have well-formed values. -/
structure Describes (u : PositionUpdate) (ms : List (String × List Char)) : Prop where
  own : ∃ x y id, FloatText .stepwise x u.lon ∧ FloatText .stepwise y u.lat ∧ u.taxiId.JsonText id ∧
    (ms.filter isOwn).Perm [("lon", x), ("lat", y), ("taxiId", id)]
  others : ∀ m ∈ ms, isOwn m = false → IsText .value m.2

theorem isKnown_iff {m : String × List Char} : IsKnown fields m.1 ↔ isOwn m = true := by
  simp only [isOwn, Bool.or_eq_true, decide_eq_true_eq]
  constructor
  · rintro ⟨field, member, name⟩
    simp only [fields, List.mem_cons, List.not_mem_nil, or_false] at member
    rcases member with rfl | rfl | rfl
    · exact .inl (.inl name.symm)
    · exact .inl (.inr name.symm)
    · exact .inr name.symm
  · rintro ((name | name) | name)
    · exact ⟨_, .head _, name.symm⟩
    · exact ⟨_, .tail _ (.head _), name.symm⟩
    · exact ⟨_, .tail _ (.tail _ (.head _)), name.symm⟩

/-- What has been read of an update is right. -/
structure Agrees (u : PositionUpdate) (seen : List String) (read : PositionUpdate) : Prop where
  lon : "lon" ∈ seen → read.lon = u.lon
  lat : "lat" ∈ seen → read.lat = u.lat
  taxiId : "taxiId" ∈ seen → read.taxiId = u.taxiId

/-- **The fields of an update can be read one by one** from members that describe it. -/
theorem fills (h : u.Describes ms) (depth : ℕ) : Fills fields depth ms u.Agrees := by
  obtain ⟨x, y, id, hx, hy, hid, perm⟩ := h.own
  have own : ∀ m ∈ ms, isOwn m = true → m ∈ [("lon", x), ("lat", y), ("taxiId", id)] :=
    fun m hm known => perm.mem_iff.1 (List.mem_filter.2 ⟨hm, known⟩)
  constructor
  · intro field member t ht seen record holds gap rest hgap stops
    have other : ∀ {a b : String}, a ∈ b :: seen → a ≠ b → a ∈ seen :=
      fun mem ne => (List.mem_cons.1 mem).resolve_left ne
    simp only [fields, List.mem_cons, List.not_mem_nil, or_false] at member
    rcases member with rfl | rfl | rfl
    · obtain rfl : t = x := by simpa [Field.required] using own _ ht rfl
      refine ⟨_, ?_, required_text (float_reads hgap hx stops)⟩
      exact ⟨fun _ => rfl, fun seen => holds.lat (other seen (by decide)),
        fun seen => holds.taxiId (other seen (by decide))⟩
    · obtain rfl : t = y := by simpa [Field.required] using own _ ht rfl
      refine ⟨_, ?_, required_text (float_reads hgap hy stops)⟩
      exact ⟨fun seen => holds.lon (other seen (by decide)), fun _ => rfl,
        fun seen => holds.taxiId (other seen (by decide))⟩
    · obtain rfl : t = id := by simpa [Field.required] using own _ ht rfl
      refine ⟨_, ?_, required_text (ClientId.reader_text hgap hid stops)⟩
      exact ⟨fun seen => holds.lon (other seen (by decide)),
        fun seen => holds.lat (other seen (by decide)), fun _ => rfl⟩
  · intro m hm unknown
    exact h.others m hm (Bool.eq_false_iff.2 fun known => unknown (isKnown_iff.2 known))

/-- No member of an update comes twice. -/
theorem Describes.once (h : u.Describes ms) : ms.Pairwise fun a b => IsKnown fields a.1 → a.1 ≠ b.1 := by
  obtain ⟨x, y, id, -, -, -, perm⟩ := h.own
  have apart : (ms.filter isOwn).Pairwise fun a b => a.1 ≠ b.1 := by
    rw [perm.pairwise_iff Ne.symm]
    simp
  refine (List.pairwise_filter.1 apart).imp ?_
  intro a b distinct known same
  exact distinct (isKnown_iff.1 known) (isKnown_iff.1 (same ▸ known)) same

/-- Every field of an update has its member. -/
theorem Describes.complete (h : u.Describes ms) : ∀ field ∈ fields, ∃ value, (field.name, value) ∈ ms := by
  obtain ⟨x, y, id, -, -, -, perm⟩ := h.own
  have among : ∀ m ∈ [("lon", x), ("lat", y), ("taxiId", id)], m ∈ ms :=
    fun m hm => List.mem_of_mem_filter (perm.mem_iff.2 hm)
  intro field member
  simp only [fields, List.mem_cons, List.not_mem_nil, or_false] at member
  rcases member with rfl | rfl | rfl
  · exact ⟨x, among _ (by simp [Field.required])⟩
  · exact ⟨y, among _ (by simp [Field.required])⟩
  · exact ⟨id, among _ (by simp [Field.required])⟩

/-- If every field has been seen, then all of the update has been read. -/
theorem Agrees.eq {seen : List String} {read : PositionUpdate} (h : u.Agrees seen read)
    (all : ∀ field ∈ fields, field.name ∈ seen) : read = u := by
  have lon := h.lon (all _ (.head _))
  have lat := h.lat (all _ (.tail _ (.head _)))
  have taxiId := h.taxiId (all _ (.tail _ (.tail _ (.head _))))
  cases read
  cases u
  cases lon
  cases lat
  cases taxiId
  rfl

theorem agrees_blank (read : PositionUpdate) : u.Agrees [] read :=
  ⟨fun none => absurd none List.not_mem_nil, fun none => absurd none List.not_mem_nil,
    fun none => absurd none List.not_mem_nil⟩

/-- The members that are written for an update. -/
theorem membersText_toJson (u : PositionUpdate) :
    MembersText
      (printMembers [("lon", .ofFloat u.lon), ("lat", .ofFloat u.lat), ("taxiId", u.taxiId.toJson)])
      [("lon", (Value.ofFloat u.lon).print), ("lat", (Value.ofFloat u.lat).print),
        ("taxiId", u.taxiId.toJson.print)] :=
  membersText_printed (List.cons_ne_nil _ _)

/-- What is written for an update describes it, if its coordinates are read back. -/
theorem describes_printed (lon : ReadsBack u.lon) (lat : ReadsBack u.lat) :
    u.Describes [("lon", (Value.ofFloat u.lon).print), ("lat", (Value.ofFloat u.lat).print),
      ("taxiId", u.taxiId.toJson.print)] := by
  constructor
  · exact ⟨_, _, _, lon, lat, ClientId.jsonText_print _, .refl _⟩
  · intro m member other
    simp only [List.mem_cons, List.not_mem_nil, or_false] at member
    rcases member with rfl | rfl | rfl <;> cases other

/-- **What describes an update is read as the update**, whatever stands around it. -/
theorem parse_of_describes {before t after : List Char} (hb : Text.isAllBlank before = true)
    (ha : Text.isAllBlank after = true) (ht : MembersText t ms) (h : u.Describes ms) :
    parse (before ++ '\x7b' :: (t ++ '\x7d' :: after)) = .ok u := by
  have trimmed : Text.trim (before ++ '\x7b' :: (t ++ '\x7d' :: after)) = '\x7b' :: (t ++ ['\x7d']) := by
    rw [Text.trim_blank_append _ hb, ← enclosed_append, Text.trim_append_blank _ ha,
      Text.trim_enclosed (by decide) (by decide)]
  obtain ⟨seen, record, holds, all, read⟩ :
      ∃ seen record, u.Agrees seen record ∧ (∀ field ∈ fields, field.name ∈ seen) ∧
        Yields (reader maxDepth ('\x7b' :: (t ++ ['\x7d']))) record [] :=
    record_text ht (fills h _) h.once (agrees_blank _) h.complete []
  have whole : readAll reader ('\x7b' :: (t ++ ['\x7d'])) = .ok record := readAll_text read .nil
  rw [parse, trimmed, whole, holds.eq all]

/-- **Updates survive their JSON form.**  An update is read from what is written for it, and from every object
that has its members in any order and among any others, with white space anywhere.  Numbers are found in
steps, which may miss the nearest number; so of the coordinates it is asked that what is written for them is
read back.  This holds of all finite ones with few digits, by `readsBack_of_hasFewDigits`. -/
theorem parse_described (u : PositionUpdate) :
    (ReadsBack u.lon → ReadsBack u.lat → parse u.toJson.print = .ok u) ∧
      ∀ (before t after : List Char) (ms : List (String × List Char)),
        Text.isAllBlank before = true → Text.isAllBlank after = true → MembersText t ms → u.Describes ms →
        parse (before ++ '\x7b' :: (t ++ '\x7d' :: after)) = .ok u := by
  constructor
  · intro lon lat
    have read := parse_of_describes List.all_nil List.all_nil u.membersText_toJson
      (describes_printed lon lat)
    rwa [List.nil_append, ← Value.print] at read
  · intro before t after ms hb ha ht h
    exact parse_of_describes hb ha ht h

/-- Members in another order, with white space, an escape in a name, and a member that does not count. -/
theorem scattered_parsed :
    parse (toJson ⟨1.5, -2, .name "17"⟩).print = .ok ⟨1.5, -2, .name "17"⟩ ∧
      parse "\t\x7b\"taxiId\" : \"17\",\"x\":\x7b\x7d,\"l\\u0061t\":-2e0 ,\n\"lon\":1.5\x7d\n".toList =
        .ok ⟨1.5, -2, .name "17"⟩ := by
  have taxiId : MemberText ([] ++ '"' :: ("taxiId".toList ++ '"' :: ([' '] ++ ':' :: ([' '] ++
      (['"', '1', '7', '"'] ++ []))))) ("taxiId", ['"', '1', '7', '"']) :=
    .intro .nil (spelled_escaped "taxiId".toList) (List.all_eq_true.1 rfl) (List.all_eq_true.1 rfl) .nil
  have other : MemberText ([] ++ '"' :: ("x".toList ++ '"' :: ([] ++ ':' :: ([] ++
      (['\x7b', '\x7d'] ++ []))))) ("x", ['\x7b', '\x7d']) :=
    .intro .nil (spelled_escaped "x".toList) .nil .nil .nil
  have lat : MemberText ([] ++ '"' :: ("l\\u0061t".toList ++ '"' :: ([] ++ ':' :: ([] ++
      (['-', '2', 'e', '0'] ++ [' ']))))) ("lat", ['-', '2', 'e', '0']) :=
    .intro .nil (.plain (by decide) (by decide) (by decide) (.unit (n := 97) rfl (by decide)
      (spelled_escaped ['t']))) .nil .nil (List.all_eq_true.1 rfl)
  have lon : MemberText (['\n'] ++ '"' :: ("lon".toList ++ '"' :: ([] ++ ':' :: ([] ++
      (['1', '.', '5'] ++ []))))) ("lon", ['1', '.', '5']) :=
    .intro (List.all_eq_true.1 rfl) (spelled_escaped "lon".toList) .nil .nil .nil
  have latText : FloatText .stepwise ['-', '2', 'e', '0'] (-2) :=
    floatText_of_short (@NumeralText.intro ⟨true, ['2'], [], some (FleetMatch.Numeral.value ['0'])⟩ []
      ['e', '0'] (isWhole_digits 2) .absent (.unsigned (.inl rfl) (isDigits_digits 0)))
      ⟨by decide, by decide, by decide⟩ (by decide +kernel)
  have lonText : FloatText .stepwise ['1', '.', '5'] 1.5 :=
    floatText_of_short (pointed_text (isWhole_digits 1) (isDigits_digits 5))
      ⟨by decide, by decide, by decide⟩ (by decide +kernel)
  have describes : Describes ⟨1.5, -2, .name "17"⟩ [("taxiId", ['"', '1', '7', '"']),
      ("x", ['\x7b', '\x7d']), ("lat", ['-', '2', 'e', '0']), ("lon", ['1', '.', '5'])] := by
    constructor
    · exact ⟨_, _, _, lonText, latText, .name (spelled_escaped "17".toList), by decide +kernel⟩
    · intro m member notOwn
      simp only [List.mem_cons, List.not_mem_nil, or_false] at member
      rcases member with rfl | rfl | rfl | rfl
      · cases notOwn
      · exact .emptyObject .nil
      · cases notOwn
      · cases notOwn
  have lonBack : ReadsBack 1.5 :=
    readsBack_of_hasFewDigits (by decide +kernel) ⟨by decide +kernel, by decide +kernel⟩
  have latBack : ReadsBack (-2) :=
    readsBack_of_hasFewDigits (by decide +kernel) ⟨by decide +kernel, by decide +kernel⟩
  obtain ⟨printed, described⟩ := parse_described ⟨1.5, -2, .name "17"⟩
  have read := described ['\t'] _ ['\n'] _ rfl rfl (.cons taxiId (.cons other (.cons lat (.single lon))))
    describes
  exact ⟨printed lonBack latBack, (congrArg parse (by decide +kernel)).trans read⟩

/-- A name with half of a surrogate pair spells no text.  Its member is well-formed, but not read over. -/
theorem unpaired_name_refused :
    Describes ⟨1, 2, .number 1⟩ [("lon", "1.0".toList), ("lat", "2.0".toList), ("taxiId", "1".toList)] ∧
      MembersText "\"lon\":1.0,\"lat\":2.0,\"taxiId\":1".toList
        [("lon", "1.0".toList), ("lat", "2.0".toList), ("taxiId", "1".toList)] ∧
      IsText .member "\"\\ud800\":0".toList ∧
      parse "\x7b\"lon\":1.0,\"lat\":2.0,\"taxiId\":1,\"\\ud800\":0\x7d".toList ≠
        .ok ⟨1, 2, .number 1⟩ := by
  have lon : (Value.ofFloat 1).print = "1.0".toList := by decide +kernel
  have lat : (Value.ofFloat 2).print = "2.0".toList := by decide +kernel
  have taxiId : (ClientId.toJson (.number 1)).print = "1".toList := by decide +kernel
  have one : ReadsBack 1 :=
    readsBack_of_hasFewDigits (by decide +kernel) ⟨by decide +kernel, by decide +kernel⟩
  have two : ReadsBack 2 :=
    readsBack_of_hasFewDigits (by decide +kernel) ⟨by decide +kernel, by decide +kernel⟩
  have describes : Describes ⟨1, 2, .number 1⟩ _ := describes_printed one two
  rw [lon, lat, taxiId] at describes
  have members := membersText_toJson ⟨1, 2, .number 1⟩
  rw [lon, lat, taxiId] at members
  refine ⟨describes, members, ?_, ?_⟩
  · have zero : IsText .item ([] ++ (['0'] ++ [])) :=
      .item .nil (.number (@NumeralText.intro ⟨false, ['0'], [], none⟩ [] [] isWhole_zero .absent .absent)) .nil
    have name : StringBody ['\\', 'u', 'd', '8', '0', '0'] := .unit (n := 0xD800) rfl .nil
    exact .member .nil name .nil zero
  · have refused : (parse
        "\x7b\"lon\":1.0,\"lat\":2.0,\"taxiId\":1,\"\\ud800\":0\x7d".toList).toBool = false := by
      decide +kernel
    intro read
    rw [read] at refused
    cases refused

end PositionUpdate

end FleetMatch
