import SymbolExport.Proofs.Presentation

/-!
# Reading presentations

Whatever text presents a value, reading it gives a value that agrees with it. For a structure this is
an invariant of the loop over the members of an object: the slots hold the values of those fields
whose keys have been read, in whatever order they come.
-/

namespace SymbolExport

open Json

namespace Json

theorem Quotes.opens {text : List Char} {s : String} (quotes : Quotes text s) :
    ∃ b more, Json.octets text = b :: more ∧ Opens b := by
  obtain ⟨ps, rfl, _⟩ := quotes
  exact ⟨0x22, _, rfl, by simp [Opens]⟩

theorem yields_stringOf (expected : String) {text : List Char} {s : String}
    (quotes : Quotes text s) : Yields (Reader.stringOf expected) text s := by
  refine ⟨quotes.opens, fun rest ends => ?_⟩
  obtain ⟨more, starts, read⟩ := quotes.octets rest
  rw [starts]
  exact .bind (.peekToken rfl more) (.bind (.advance 0x22 more) read)

theorem yields_flag (b : Bool) : Yields Reader.flag (chars (.bool b)) b := by
  cases b with
  | true =>
      refine ⟨⟨0x74, _, rfl, by simp [Opens]⟩, fun rest ends => ?_⟩
      exact .bind (.peekToken rfl _) (.bind (.advance _ _) (.bind (.word _ rest) (.pure _ rest)))
  | false =>
      refine ⟨⟨0x66, _, rfl, by simp [Opens]⟩, fun rest ends => ?_⟩
      exact .bind (.peekToken rfl _) (.bind (.advance _ _) (.bind (.word _ rest) (.pure _ rest)))

theorem yields_choice {n : Nat} {names : Vector String n} {i : Fin n}
    (found : Reader.lookupName names (names.get i) = some i) (depth : Nat) {text : List Char}
    (quotes : Quotes text (names.get i)) : Yields (Reader.choice names depth) text i := by
  refine ⟨quotes.opens, fun rest ends => ?_⟩
  obtain ⟨more, starts, read⟩ := quotes.octets rest
  have known : Reads (Reader.knownName names (names.get i)) rest i rest := by
    rw [Reader.knownName, found]
    exact .pure i rest
  rw [starts]
  exact .bind (.peekToken rfl more) (.bind (.advance 0x22 more) (.bind read known))

theorem chars_ofNat {n : Nat} (small : n < 18446744073709551616) :
    chars (.ofNat n) = Decimal.natText n := by
  have same : (UInt64.ofNat n).toNat = n := UInt64.toNat_ofNat_of_lt' small
  show Decimal.intText (UInt64.ofNat n).toNat = Decimal.natText n
  rw [same, Decimal.intText, if_neg (by omega), Int.natAbs_natCast]

theorem yields_count {n : Nat} (small : n < 18446744073709551616) :
    Yields Reader.count (chars (.ofNat n)) n := by
  rw [chars_ofNat small]
  obtain ⟨b, more, starts, digit⟩ := Decimal.octets_natText n
  have opens : Opens b := by simp [Opens, digit]
  refine ⟨⟨b, more, starts, opens⟩, fun rest ends => ?_⟩
  have sign : true = decide (0 ≤ (n : Int)) := (decide_eq_true (Int.natCast_nonneg n)).symm
  have number := @Reads.integer ⟨n, by omega, by omega⟩ true sign rest ends
  rw [Int.natAbs_natCast, starts] at number
  rw [starts]
  refine .bind (.peekToken opens.visible _) ?_
  split
  · contradiction
  · next minus => cases minus; contradiction
  · next b' same =>
      cases same
      rw [if_pos digit]
      refine .bind number ?_
      rw [Reader.countOf, if_pos (Int.natCast_nonneg n)]
      exact .pure n rest

theorem head_of_nullFree : (shape : Shape) → shape.nullFree = true → (v : shape.Value) →
    (t : List Char) → shape.Canonical v → shape.Presents v t →
    ∃ b more, octets t = b :: more ∧ b ≠ 0x6E
  | .text, _, _, _, _, rfl => ⟨0x22, _, rfl, by decide⟩
  | .flag, _, true, _, _, rfl => ⟨0x74, _, rfl, by decide⟩
  | .flag, _, false, _, _, rfl => ⟨0x66, _, rfl, by decide⟩
  | .count, _, n, _, small, rfl => by
      obtain ⟨b, more, starts, digit⟩ := Decimal.octets_natText n
      refine ⟨b, more, by rw [chars_ofNat small, starts], ?_⟩
      rintro rfl
      contradiction
  | .choice _, _, _, _, _, rfl => ⟨0x22, _, rfl, by decide⟩
  | .list _, _, _, _, _, ⟨_, _, rfl⟩ => ⟨0x5B, _, rfl, by decide⟩
  | .struct _ _, _, _, _, _, ⟨_, _, _, _, _, _, rfl⟩ => ⟨0x7B, _, rfl, by decide⟩

theorem yields_absent (inner : Shape) (depth : Nat) :
    Yields ((Shape.optional inner).read depth) (chars .null) none := by
  refine ⟨⟨0x6E, _, rfl, by simp [Opens]⟩, fun rest ends => ?_⟩
  exact .bind (.peekToken rfl _) (.bind (.advance _ _) (.bind (.word _ rest) (.pure _ rest)))

theorem yields_present {inner : Shape} {depth : Nat} {t : List Char} {v : inner.Value} {b : UInt8}
    {more : Bytes} (starts : octets t = b :: more) (notNull : b ≠ 0x6E)
    (yields : Yields (inner.read depth) t v) :
    Yields ((Shape.optional inner).read depth) t (some v) := by
  refine ⟨yields.opens, fun rest ends => ?_⟩
  have read := yields.reads rest ends
  have visible : Cursor.isSpace b = false := by
    obtain ⟨b', _, same, opens⟩ := yields.opens
    rw [starts] at same
    cases same
    exact opens.visible
  rw [starts] at read ⊢
  refine .bind (.peekToken visible _) ?_
  split
  · next null => exact absurd (Option.some.inj null) notNull
  · exact .bind read (.pure _ rest)

theorem yields_runtimeValue {v : RuntimeValue} (canonical : v.Canonical) {depth : Nat}
    (shallow : v.toJson.nesting ≤ depth) : Yields (Shape.value.read depth) (chars v.toJson) v := by
  have yields := yields_value canonical.toJson depth shallow
  refine ⟨yields.opens, fun rest ends => ?_⟩
  have result : Reads (Shape.value.read depth) (octets (chars v.toJson) ++ rest)
      (RuntimeValue.ofJson v.toJson) rest := .bind (yields.reads rest ends) (.pure _ rest)
  rwa [canonical.ofJson_toJson] at result

theorem yields_list {item : Shape} {depth : Nat} {texts : List (List Char)} {vs : List item.Value}
    (yields : List.Forall₂ (Yields (item.read depth)) texts vs) :
    Yields ((Shape.list item).read (depth + 1)) (enclosed '[' ']' texts) vs := by
  refine ⟨⟨0x5B, _, rfl, by simp [Opens]⟩, fun rest ends => ?_⟩
  rw [octets_list]
  exact .bind (.peekToken rfl _) (.bind (.advance _ _) (.list yields rest))

end Json

/-- A member of an object, with white space around its key and behind its value. -/
structure SpacedMember where
  member : Member
  before : Gap
  behind : Gap
  after : Gap

namespace SpacedMember

def key (e : SpacedMember) : String :=
  e.member.key

def text (e : SpacedMember) : List Char :=
  e.before.chars ++ (e.member.keyText ++ (e.behind.chars ++
    ':' :: (e.member.valueText ++ e.after.chars)))

def tight (m : Member) : SpacedMember where
  member := m
  before := .none
  behind := .none
  after := .none

theorem texts_tight (members : List Member) :
    (members.map tight).map text = members.map Member.text := by
  rw [List.map_map]
  refine List.map_congr_left fun m _ => ?_
  show m.keyText ++ ':' :: (m.valueText ++ []) = m.text
  rw [List.append_nil, Member.text]

theorem octets_text (e : SpacedMember) (rest : Bytes) :
    octets e.text ++ rest = octets e.before.chars ++ (octets e.member.keyText ++
      (octets e.behind.chars ++ 0x3A :: (octets e.member.valueText ++
        (octets e.after.chars ++ rest)))) := by
  rw [text, octets_append, List.append_assoc, octets_colon, octets_append, List.append_assoc]

end SpacedMember

/-- What a slot holds, given the field's value and the keys that have been read. -/
structure Fills (shape : Shape) (name : String) (seen : List String)
    (v slot : Option shape.Value) : Prop where
  read : name ∈ seen → ∃ w ∈ v, ∃ w' ∈ slot, shape.Agrees w w'
  unread : name ∉ seen → slot = none

theorem Fills.cons {shape : Shape} {name key : String} {seen : List String}
    {v slot : Option shape.Value} (fills : Fills shape name seen v slot) (other : key ≠ name) :
    Fills shape name (key :: seen) v slot := by
  constructor
  · intro within
    rcases List.mem_cons.mp within with same | within
    · exact absurd same.symm other
    · exact fills.read within
  · intro absent
    exact fills.unread fun within => absent (List.mem_cons_of_mem key within)

/-- The slots hold the values of those fields whose keys have been read. -/
def Fields.Filled : (fields : Fields) → fields.Value → List String → fields.Slots → Prop
  | .nil, _, _, _ => True
  | .required name shape others, (v, rest), seen, (slot, slots) =>
      Fills shape name seen (some v) slot ∧ others.Filled rest seen slots
  | .defaulted name shape others, (v, rest), seen, (slot, slots) =>
      Fills shape name seen v slot ∧ others.Filled rest seen slots

namespace Fields

theorem filled_noSlots : (fields : Fields) → (v : fields.Value) →
    fields.Filled v [] fields.noSlots
  | .nil, _ => trivial
  | .required _ _ others, (_, rest) =>
      ⟨⟨nofun, fun _ => rfl⟩, others.filled_noSlots rest⟩
  | .defaulted _ _ others, (_, rest) =>
      ⟨⟨nofun, fun _ => rfl⟩, others.filled_noSlots rest⟩

/-- A key that names none of the fields changes nothing. -/
theorem Filled.cons {key : String} {seen : List String} : {fields : Fields} → {v : fields.Value} →
    {slots : fields.Slots} → key ∉ fields.names → fields.Filled v seen slots →
    fields.Filled v (key :: seen) slots
  | .nil, _, _, _, _ => trivial
  | .required _ _ _, (_, _), (_, _), other, ⟨fills, filled⟩ =>
      ⟨fills.cons (List.ne_of_not_mem_cons other), filled.cons (List.not_mem_of_not_mem_cons other)⟩
  | .defaulted _ _ _, (_, _), (_, _), other, ⟨fills, filled⟩ =>
      ⟨fills.cons (List.ne_of_not_mem_cons other), filled.cons (List.not_mem_of_not_mem_cons other)⟩

/-- A field that is written can be read into its slot, whatever fields came before it. -/
def ReadsMember (fields : Fields) (depth : Nat) (v : fields.Value) (m : Member) : Prop :=
  ∀ (seen : List String) (slots : fields.Slots), m.key ∉ seen → fields.Filled v seen slots →
    ∃ slots', fields.Filled v (m.key :: seen) slots' ∧ ∀ rest, Ends rest →
      Reads (fields.readField depth m.key slots) (0x3A :: (octets m.valueText ++ rest)) slots' rest

variable {name : String} {shape : Shape} {others : Fields} {depth : Nat}

theorem readsMember_head {v : shape.Value} {w : shape.Value} {rest : others.Value} {m : Member}
    (own : m.key = name) (other : name ∉ others.names) (agrees : shape.Agrees v w)
    (reads : ∀ rest, Ends rest → Reads (shape.read depth) (octets m.valueText ++ rest) w rest) :
    (Fields.defaulted name shape others).ReadsMember depth (some v, rest) m := by
  subst own
  rintro seen ⟨slot, slots⟩ unseen ⟨fills, filled⟩
  have empty : slot = none := fills.unread unseen
  subst empty
  refine ⟨(some w, slots), ⟨⟨fun _ => ⟨v, rfl, w, rfl, agrees⟩, ?_⟩, filled.cons other⟩, ?_⟩
  · intro absent
    exact absurd List.mem_cons_self absent
  · intro after ends
    show Reads (if m.key = m.key then _ else _) _ _ _
    rw [if_pos rfl]
    exact .bind (.colon _) (.bind (reads after ends) (.pure _ after))

theorem readsMember_tail {v : Option shape.Value} {rest : others.Value} {m : Member}
    (other : m.key ≠ name) (reads : others.ReadsMember depth rest m) :
    (Fields.defaulted name shape others).ReadsMember depth (v, rest) m := by
  rintro seen ⟨slot, slots⟩ unseen ⟨fills, filled⟩
  obtain ⟨slots', filled', read⟩ := reads seen slots unseen filled
  refine ⟨(slot, slots'), ⟨fills.cons other, filled'⟩, fun after ends => ?_⟩
  show Reads (if m.key = name then _ else _) _ _ _
  rw [if_neg other]
  exact .bind (read after ends) (.pure _ after)

theorem readsMember_required {v : shape.Value} {rest : others.Value} {m : Member}
    (reads : (Fields.defaulted name shape others).ReadsMember depth (some v, rest) m) :
    (Fields.required name shape others).ReadsMember depth (v, rest) m :=
  reads

/-- Once all written fields have been read, no required one is missing. -/
theorem Filled.complete {seen : List String} : {fields : Fields} → {v : fields.Value} →
    {slots : fields.Slots} → {own : List Member} → fields.Presents v own →
    fields.Filled v seen slots → (∀ m ∈ own, m.key ∈ seen) →
    ∃ w, fields.complete slots = .ok w ∧ fields.Agrees v w
  | .nil, (), (), _, _, _, _ => ⟨(), rfl, trivial⟩
  | .required name shape others, (v, rest), (slot, slots), _, ⟨head, more, rfl, field, presents⟩,
      ⟨fills, filled⟩, all => by
      obtain ⟨w, complete, agrees⟩ := Filled.complete presents filled fun m within =>
        all m (List.mem_append_right head within)
      rcases field with ⟨absent, _⟩ | ⟨_, _, t, _, rfl⟩
      · exact absent.elim
      · obtain ⟨_, ⟨⟩, v', ⟨⟩, agrees'⟩ := fills.read (all _ List.mem_cons_self)
        refine ⟨(v', w), ?_, agrees', agrees⟩
        rw [Fields.complete, complete]
        rfl
  | .defaulted name shape others, (v, rest), (slot, slots), _, ⟨head, more, rfl, field, presents⟩,
      ⟨fills, filled⟩, all => by
      obtain ⟨w, complete, agrees⟩ := Filled.complete presents filled fun m within =>
        all m (List.mem_append_right head within)
      refine ⟨(slot, w), by rw [Fields.complete, complete]; rfl, ?_, agrees⟩
      by_cases read : name ∈ seen
      · obtain ⟨_, ⟨⟩, v', ⟨⟩, agrees'⟩ := fills.read read
        exact agrees'
      · rw [fills.unread read]
        rcases field with ⟨default, _⟩ | ⟨_, _, t, _, rfl⟩
        · cases v with
          | none => trivial
          | some v => exact default v rfl
        · exact absurd (all _ List.mem_cons_self) read

theorem reads_presented {v : Option shape.Value} {rest : others.Value} {mayMiss : Prop}
    {head more : List Member} (fresh : name ∉ others.names)
    (field : FieldPresents shape.Presents name v mayMiss head) (presents : others.Presents rest more)
    (first : ∀ w ∈ v, ∀ t, shape.Presents w t →
      ∃ w', shape.Agrees w w' ∧ Yields (shape.read depth) t w')
    (later : ∀ m ∈ more, others.ReadsMember depth rest m) :
    ∀ m ∈ head ++ more, (Fields.defaulted name shape others).ReadsMember depth (v, rest) m := by
  intro m within
  rcases List.mem_append.mp within with within | within
  · rcases field with ⟨_, rfl⟩ | ⟨w, ⟨⟩, t, presents, rfl⟩
    · cases within
    · obtain ⟨w', agrees, yields⟩ := first w rfl t presents
      rw [List.mem_singleton.mp within]
      exact readsMember_head rfl fresh agrees yields.reads
  · have other : m.key ≠ name := fun same => fresh (same ▸ presents.key_mem m within)
    exact readsMember_tail other (later m within)

theorem reads_foreign {m : Member} {rest : Bytes} (skipped : Skipped m.valueText)
    (ends : Ends rest) : (fields : Fields) → (slots : fields.Slots) → m.key ∉ fields.names →
    Reads (fields.readField depth m.key slots) (0x3A :: (octets m.valueText ++ rest)) slots rest
  | .nil, (), _ => .bind (.colon _) (.bind (skipped rest ends) (.pure () rest))
  | .required name shape others, (slot, slots), other => by
      show Reads (if m.key = name then _ else _) _ _ _
      rw [if_neg (List.ne_of_not_mem_cons other)]
      exact .bind (reads_foreign skipped ends others slots (List.not_mem_of_not_mem_cons other))
        (.pure _ rest)
  | .defaulted name shape others, (slot, slots), other => by
      show Reads (if m.key = name then _ else _) _ _ _
      rw [if_neg (List.ne_of_not_mem_cons other)]
      exact .bind (reads_foreign skipped ends others slots (List.not_mem_of_not_mem_cons other))
        (.pure _ rest)

/-- A member of an object: a field of the structure that can be read, or one of another name. -/
def Legible (fields : Fields) (depth : Nat) (v : fields.Value) (m : Member) : Prop :=
  m.key ∈ fields.names ∧ fields.ReadsMember depth v m ∨
    m.key ∉ fields.names ∧ Skipped m.valueText

/-- One round of the loop over an object: only the structure's own keys count as seen. -/
theorem reads_member {fields : Fields} {v : fields.Value} {m : Member} {seen : List String}
    {slots : fields.Slots} (legible : fields.Legible depth v m)
    (unseen : m.key ∈ fields.names → m.key ∉ seen) (filled : fields.Filled v seen slots) :
    ∃ seen' slots', fields.Filled v seen' slots' ∧
      (∀ key, key ∈ seen' ↔ key ∈ seen ∨ key = m.key ∧ key ∈ fields.names) ∧
      ∀ rest, Ends rest → Reads (fields.readField depth m.key slots)
        (0x3A :: (octets m.valueText ++ rest)) slots' rest := by
  rcases legible with ⟨own, reads⟩ | ⟨other, skipped⟩
  · obtain ⟨slots', filled', read⟩ := reads seen slots (unseen own) filled
    refine ⟨m.key :: seen, slots', filled', fun key => ?_, read⟩
    rw [List.mem_cons, or_comm]
    exact or_congr_right ⟨fun h => ⟨h, h ▸ own⟩, fun h => h.1⟩
  · refine ⟨seen, slots, filled, fun key => ⟨.inl, fun h => h.elim id ?_⟩, fun rest ends => ?_⟩
    · rintro ⟨rfl, within⟩
      exact absurd within other
    · exact reads_foreign skipped ends fields slots other

/-- White space in front of the colon is not seen. -/
theorem continues_readField (g : Gap) (key : String) (input : Bytes) : (fields : Fields) →
    (slots : fields.Slots) → Continues (fields.readField depth key slots)
      (fields.readField depth key slots) (octets g.chars ++ input) input
  | .nil, () => (Continues.gap g _ input).andThen _
  | .required name shape others, (slot, slots) => by
      show Continues (if key = name then _ else _) (if key = name then _ else _) _ _
      split
      · cases slot with
        | some _ => exact Continues.gap g _ input
        | none => exact (Continues.gap g _ input).andThen _
      · exact (continues_readField g key input others slots).andThen _
  | .defaulted name shape others, (slot, slots) => by
      show Continues (if key = name then _ else _) (if key = name then _ else _) _ _
      split
      · cases slot with
        | some _ => exact Continues.gap g _ input
        | none => exact (Continues.gap g _ input).andThen _
      · exact (continues_readField g key input others slots).andThen _

/-- The loop over the members of an object reads all of the structure's fields among them. -/
theorem reads_spaced {fields : Fields} {v : fields.Value} {entries : List SpacedMember}
    (each : ∀ e ∈ entries, fields.Legible depth v e.member)
    (once : entries.Pairwise fun a b => a.key = b.key → a.key ∉ fields.names)
    (seen : List String) (unseen : ∀ e ∈ entries, e.key ∈ fields.names → e.key ∉ seen)
    (slots : fields.Slots) (filled : fields.Filled v seen slots) :
    ∃ seen' slots', fields.Filled v seen' slots' ∧
      (∀ key, key ∈ seen' ↔ key ∈ seen ∨ key ∈ entries.map SpacedMember.key ∧ key ∈ fields.names) ∧
      ∀ (front : Gap) first fuel rest,
        (octets (joined first (entries.map SpacedMember.text)) ++ 0x7D :: rest).length < fuel →
        Reads (Reader.collectFields (fields.readField depth) fuel first slots)
          (octets front.chars ++ (octets (joined first (entries.map SpacedMember.text)) ++ 0x7D :: rest))
          slots' (0x7D :: rest) := by
  -- Only keys of the structure enter `seen`: the others may repeat, and their slots stay as they are.
  induction entries generalizing seen slots with
  | nil =>
      refine ⟨seen, slots, filled, by simp, fun front first fuel rest enough => ?_⟩
      obtain ⟨fuel, rfl⟩ := Nat.exists_eq_add_one_of_ne_zero (Nat.ne_zero_of_lt enough)
      exact ((Continues.gap front _ _).andThen _).reads
        (.bind (.nextKey_end first rest) (.pure slots _))
  | cons e entries ih =>
      rw [List.forall_mem_cons] at each unseen
      rw [List.pairwise_cons] at once
      obtain ⟨seen₁, slots₁, filled₁, keys₁, read⟩ := reads_member each.1 unseen.1 filled
      have unseen₁ : ∀ e' ∈ entries, e'.key ∈ fields.names → e'.key ∉ seen₁ := by
        intro e' within own again
        rcases (keys₁ _).mp again with before | ⟨same, _⟩
        · exact unseen.2 e' within own before
        · exact once.1 e' within same.symm ((congrArg (· ∈ fields.names) same).mp own)
      obtain ⟨seen₂, slots₂, filled₂, keys₂, reads⟩ := ih each.2 once.2 seen₁ unseen₁ slots₁ filled₁
      refine ⟨seen₂, slots₂, filled₂, fun key => ?_, fun front first fuel rest enough => ?_⟩
      · rw [keys₂, keys₁, List.map_cons, List.mem_cons]
        tauto
      · obtain ⟨fuel, rfl⟩ := Nat.exists_eq_add_one_of_ne_zero (Nat.ne_zero_of_lt enough)
        rw [List.map_cons, joined, octets_append, octets_append, List.append_assoc,
          List.append_assoc, e.octets_text] at enough ⊢
        have shorter :
            (octets (joined false (entries.map SpacedMember.text)) ++ 0x7D :: rest).length < fuel := by
          simp only [List.length_append, List.length_cons] at enough ⊢
          omega
        have ends := e.after.ends (ends_joined (entries.map SpacedMember.text) (.brace rest))
        have value := (continues_readField e.behind e.key _ fields slots).reads (read _ ends)
        refine ((Continues.gap front _ _).andThen _).reads ?_
        exact .bind (.nextKey_gap first e.before e.member.quotes _) (.bind value
          (reads e.after false fuel rest shorter))

/-- An object behind its opening brace, if none of the structure's fields is missing. -/
theorem reads_object (title : String) {fields : Fields} {v : fields.Value}
    {entries : List SpacedMember} (each : ∀ e ∈ entries, fields.Legible depth v e.member)
    (once : entries.Pairwise fun a b => a.key = b.key → a.key ∉ fields.names) :
    ∃ seen slots, fields.Filled v seen slots ∧
      (∀ key, key ∈ seen ↔ key ∈ entries.map SpacedMember.key ∧ key ∈ fields.names) ∧
      ∀ w, fields.complete slots = .ok w → ∀ (inside : Gap) (rest : Bytes),
        Reads ((Shape.struct title fields).read (depth + 1)) (0x7B :: (octets inside.chars ++
          (octets (joined true (entries.map SpacedMember.text)) ++ 0x7D :: rest))) w rest := by
  obtain ⟨seen, slots, filled, keys, read⟩ := reads_spaced each once []
    (fun _ _ _ absurd => nomatch absurd) fields.noSlots (fields.filled_noSlots v)
  refine ⟨seen, slots, filled, fun key => by rw [keys]; simp, fun w complete inside rest => ?_⟩
  have enough : (octets (joined true (entries.map SpacedMember.text)) ++ 0x7D :: rest).length <
      (octets inside.chars ++ (octets (joined true (entries.map SpacedMember.text)) ++
        0x7D :: rest)).length + 1 := by
    simp only [List.length_append]
    omega
  refine .bind (.peekToken rfl _) (.bind (.advance _ _) (.bind (.remaining _)
    (.bind (read inside true _ rest enough) (.bind (.closeObject rest) ?_))))
  rw [complete]
  exact .pure w rest

end Fields

/-- The members of an object that presents a structure, in whatever order they come. -/
theorem yields_struct {title : String} {fields : Fields} {depth : Nat} {v : fields.Value}
    {own foreign members : List Member} (distinct : fields.Distinct)
    (presents : fields.Presents v own) (reads : ∀ m ∈ own, fields.ReadsMember depth v m)
    (others : ∀ m ∈ foreign, m.Foreign fields) (perm : members.Perm (own ++ foreign)) :
    ∃ w, fields.Agrees v w ∧ Yields ((Shape.struct title fields).read (depth + 1))
      (enclosed '\x7b' '\x7d' (members.map Member.text)) w := by
  have each : ∀ m ∈ members, fields.Legible depth v m := by
    intro m within
    rcases List.mem_append.mp (perm.mem_iff.mp within) with within | within
    · exact .inl ⟨presents.key_mem m within, reads m within⟩
    · obtain ⟨other, w, same⟩ := others m within
      exact .inr ⟨other, same ▸ w.skippable.skipped .none⟩
  have once : members.Pairwise fun a b => a.key = b.key → a.key ∉ fields.names := by
    refine (perm.pairwise_iff fun h same => same ▸ h same.symm).mpr ?_
    refine List.pairwise_append.mpr ⟨?_, ?_, ?_⟩
    · exact (presents.pairwise distinct).imp fun differ same => absurd same differ
    · exact List.pairwise_of_forall_mem_list fun a within b _ _ => (others a within).1
    · intro a _ b within same
      rw [same]
      exact (others b within).1
  have each' : ∀ e ∈ members.map SpacedMember.tight, fields.Legible depth v e.member :=
    List.forall_mem_map.mpr each
  obtain ⟨seen, slots, filled, keys, read⟩ :=
    Fields.reads_object title each' (List.pairwise_map.mpr once)
  have all : ∀ m ∈ own, m.key ∈ seen := by
    intro m within
    have listed : m ∈ members := perm.mem_iff.mpr (List.mem_append_left foreign within)
    refine (keys _).mpr ⟨?_, presents.key_mem m within⟩
    rw [List.map_map]
    exact List.mem_map_of_mem (f := SpacedMember.key ∘ SpacedMember.tight) listed
  obtain ⟨w, complete, agrees⟩ := filled.complete presents all
  refine ⟨w, agrees, ⟨0x7B, _, rfl, by simp [Opens]⟩, fun rest ends => ?_⟩
  rw [octets_object, ← SpacedMember.texts_tight]
  exact read w complete .none rest

/-- Related items have a common counterpart if each two of them have one. -/
theorem exists_forall₂ {α β γ : Type} {related : α → β → Prop} {left : α → γ → Prop}
    {right : β → γ → Prop} {as : List α} {bs : List β} (all : List.Forall₂ related as bs)
    (each : ∀ a ∈ as, ∀ b, related a b → ∃ c, left a c ∧ right b c) :
    ∃ cs, List.Forall₂ left as cs ∧ List.Forall₂ right bs cs := by
  induction all with
  | nil => exact ⟨[], .nil, .nil⟩
  | @cons a b as bs first _ ih =>
      rw [List.forall_mem_cons] at each
      obtain ⟨c, toLeft, toRight⟩ := each.1 b first
      obtain ⟨cs, toLefts, toRights⟩ := ih each.2
      exact ⟨c :: cs, .cons toLeft toLefts, .cons toRight toRights⟩

mutual

/-- Whatever text presents a value, reading it gives the value up to defaults that are left out. -/
theorem Shape.yields : (shape : Shape) → (depth : Nat) → (v : shape.Value) → (t : List Char) →
    shape.Distinct → shape.Canonical v → (shape.toJson v).nesting ≤ depth → shape.Presents v t →
    ∃ w, shape.Agrees v w ∧ Yields (shape.read depth) t w
  | .text, _, s, _, _, _, _, rfl => ⟨s, rfl, yields_stringOf _ (quotes_literal s)⟩
  | .flag, _, b, _, _, _, _, rfl => ⟨b, rfl, yields_flag b⟩
  | .count, _, n, _, _, small, _, rfl => ⟨n, rfl, yields_count small⟩
  | .choice _, depth, i, _, distinct, _, _, rfl =>
      ⟨i, rfl, yields_choice (distinct i) depth (quotes_literal _)⟩
  | .value, _, v, _, _, canonical, shallow, rfl => ⟨v, rfl, yields_runtimeValue canonical shallow⟩
  | .optional inner, depth, none, _, _, _, _, rfl => ⟨none, .none, yields_absent inner depth⟩
  | .optional inner, depth, some v, t, ⟨notNull, distinct⟩, canonical, shallow, presents => by
      obtain ⟨w, agrees, yields⟩ :=
        inner.yields depth v t distinct (canonical v rfl) shallow presents
      obtain ⟨b, more, starts, other⟩ :=
        head_of_nullFree inner notNull v t (canonical v rfl) presents
      exact ⟨some w, .some agrees, yields_present starts other yields⟩
  | .list item, depth, vs, _, distinct, canonical, shallow, ⟨items, presents, rfl⟩ => by
      obtain ⟨depth, rfl⟩ := Nat.exists_eq_add_one_of_ne_zero (Nat.ne_zero_of_lt shallow)
      obtain ⟨ws, agrees, yields⟩ := exists_forall₂ presents fun v within t presents => by
        have := nesting_lt_of_mem_items (List.mem_map_of_mem (f := item.toJson) within)
        rw [Shape.toJson] at shallow
        exact item.yields depth v t distinct (canonical v within) (by omega) presents
      exact ⟨ws, agrees, yields_list yields⟩
  | .struct title fields, depth, v, _, distinct, canonical, shallow,
      ⟨own, foreign, members, presents, others, perm, rfl⟩ => by
      obtain ⟨depth, rfl⟩ := Nat.exists_eq_add_one_of_ne_zero (Nat.ne_zero_of_lt shallow)
      have reads := fields.reads_own depth v own distinct canonical (fun field within => by
        have := nesting_lt_of_mem_fields within
        rw [Shape.toJson] at shallow
        omega) presents
      exact yields_struct distinct presents reads others perm

theorem Fields.reads_own : (fields : Fields) → (depth : Nat) → (v : fields.Value) →
    (own : List Member) → fields.Distinct → fields.Canonical v →
    (∀ field ∈ fields.toFields v, field.2.nesting ≤ depth) → fields.Presents v own →
    ∀ m ∈ own, fields.ReadsMember depth v m
  | .nil, _, (), _, _, _, _, rfl, _, within => nomatch within
  | .required name shape others, depth, (v, rest), _, ⟨fresh, distinct, distincts⟩,
      ⟨canonical, canonicals⟩, shallow, ⟨head, more, rfl, field, presents⟩, m, within => by
      rw [Fields.toFields, List.forall_mem_cons] at shallow
      refine Fields.readsMember_required ?_
      refine Fields.reads_presented fresh field presents ?_ ?_ m within
      · rintro _ ⟨⟩ t presents
        exact shape.yields depth v t distinct canonical shallow.1 presents
      · exact others.reads_own depth rest more distincts canonicals shallow.2 presents
  | .defaulted name shape others, depth, (none, rest), _, ⟨fresh, _, distincts⟩,
      ⟨_, canonicals⟩, shallow, ⟨head, more, rfl, field, presents⟩, m, within =>
      Fields.reads_presented fresh field presents nofun
        (others.reads_own depth rest more distincts canonicals shallow presents) m within
  | .defaulted name shape others, depth, (some v, rest), _, ⟨fresh, distinct, distincts⟩,
      ⟨canonical, canonicals⟩, shallow, ⟨head, more, rfl, field, presents⟩, m, within => by
      rw [Fields.toFields, List.forall_mem_cons] at shallow
      refine Fields.reads_presented fresh field presents ?_ ?_ m within
      · rintro _ ⟨⟩ t presents
        exact shape.yields depth v t distinct (canonical v rfl) shallow.1 presents
      · exact others.reads_own depth rest more distincts canonicals shallow.2 presents

end

end SymbolExport
