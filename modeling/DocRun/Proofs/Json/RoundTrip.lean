import DocRun.Json.Reader
import DocRun.Json.Writer
import DocRun.Proofs.Json.Literal
import DocRun.Proofs.Json.Number

namespace DocRun.Json

mutual

-- Values without floating-point numbers, whose integers are kept as such.
def Plain : Json → Prop
  | .int value => -0x8000000000000000 ≤ value ∧ value < 0x10000000000000000
  | .float _ => False
  | .arr items => PlainItems items
  | .obj members => PlainMembers members
  | _ => True

def PlainItems : List Json → Prop
  | [] => True
  | item :: items => item.Plain ∧ PlainItems items

def PlainMembers : List (String × Json) → Prop
  | [] => True
  | (_, value) :: members => value.Plain ∧ PlainMembers members

end

theorem plainItems_iff {items : List Json} : PlainItems items ↔ ∀ item ∈ items, item.Plain := by
  induction items with
  | nil => simp [PlainItems]
  | cons item items ih => simp [PlainItems, ih]

-- What may stand behind a value so that no reader takes it for a part of the value.
theorem ends_items (items : List Json) (rest : List Char) :
    Number.Ends (compactItems items ++ ']' :: rest) := by
  cases items with
  | nil => exact ⟨rfl, by decide, by decide, by decide⟩
  | cons item items => exact ⟨rfl, by decide, by decide, by decide⟩

theorem ends_members (members : List (String × Json)) (rest : List Char) :
    Number.Ends (compactMembers members ++ '}' :: rest) := by
  cases members with
  | nil => exact ⟨rfl, by decide, by decide, by decide⟩
  | cons member members => exact ⟨rfl, by decide, by decide, by decide⟩

theorem isSpace_of_startsWith {c : Char} (h : Number.startsWith c = true) :
    isSpace c = false := by
  rw [Bool.eq_false_iff]
  intro hs
  simp only [isSpace, Bool.or_eq_true, decide_eq_true_eq] at hs
  rcases hs with ((rfl | rfl) | rfl) | rfl <;> simp [Number.startsWith, Number.isDigit] at h

theorem skipSpace_cons {c : Char} {text : List Char} (h : isSpace c = false) :
    skipSpace (c :: text) = c :: text := by
  simp [skipSpace, h]

theorem readScalar_str (text : String) (rest : List Char) :
    readScalar (Literal.write text.toList ++ rest) = .ok (.str text, rest) := by
  rw [Literal.write, List.append_assoc, List.cons_append, readScalar]
  simp only [List.singleton_append, Literal.read_escapes, bind, Except.bind, String.ofList_toList]

theorem exists_cons_ofInt (value : Int) :
    ∃ c text, Decimal.ofInt value = c :: text ∧ Number.startsWith c = true := by
  rw [Decimal.ofInt]
  split
  · exact ⟨_, _, rfl, rfl⟩
  · obtain ⟨c, text, hc, hd⟩ := Number.exists_cons_ofNat value.natAbs
    exact ⟨c, text, hc, by simp [Number.startsWith, hd]⟩

theorem readScalar_int {value : Int} (h : -0x8000000000000000 ≤ value)
    (h' : value < 0x10000000000000000) {rest : List Char} (hr : Number.Ends rest) :
    readScalar (Decimal.ofInt value ++ rest) = .ok (.int value, rest) := by
  have hn := Number.read_ofInt h h' hr
  obtain ⟨c, text, hc, hs⟩ := exists_cons_ofInt value
  rw [hc, List.cons_append] at hn ⊢
  unfold readScalar
  split
  · rename_i heq
    obtain ⟨rfl, _⟩ := List.cons.inj heq
    simp [Number.startsWith, Number.isDigit] at hs
  · rename_i heq
    obtain ⟨rfl, rfl⟩ := List.cons.inj heq
    rw [if_pos hs, hn]
  · simp_all

theorem readKey_write (key : String) (rest : List Char) :
    readKey (Literal.write key.toList ++ ':' :: rest) = .ok (key, rest) := by
  rw [Literal.write, List.append_assoc, List.cons_append, readKey,
    skipSpace_cons (c := '"') (by decide)]
  simp only [List.singleton_append, Literal.read_escapes, bind, Except.bind,
    skipSpace_cons (c := ':') (by decide), String.ofList_toList]

-- The characters that a written value can start with, none of which is taken for anything else.
theorem compact_head (value : Json) (hp : value.Plain) :
    ∃ c text, value.compact = c :: text ∧ isSpace c = false ∧ c ≠ ']' := by
  cases value with
  | null => exact ⟨_, _, rfl, by decide, by decide⟩
  | bool value => cases value <;> exact ⟨_, _, rfl, by decide, by decide⟩
  | int value =>
      rw [compact, Decimal.ofInt]
      split
      · exact ⟨_, _, rfl, by decide, by decide⟩
      · obtain ⟨c, cs, hc, hd⟩ := Number.exists_cons_ofNat value.natAbs
        refine ⟨c, cs, hc, isSpace_of_startsWith (by simp [Number.startsWith, hd]), ?_⟩
        rintro rfl
        simp [Number.isDigit] at hd
  | float value => exact hp.elim
  | str text => exact ⟨_, _, rfl, by decide, by decide⟩
  | arr items => cases items <;> exact ⟨_, _, rfl, by decide, by decide⟩
  | obj members => cases members <;> exact ⟨_, _, rfl, by decide, by decide⟩

theorem skipSpace_compact {value : Json} (hp : value.Plain) (rest : List Char) :
    skipSpace (value.compact ++ rest) = value.compact ++ rest := by
  obtain ⟨c, text, hc, hs, _⟩ := compact_head value hp
  rw [hc, List.cons_append, skipSpace_cons hs]

-- What starts neither a list nor an object is read as a scalar.
theorem readValue_eq_readScalar {c : Char} (hs : isSpace c = false) (harr : c ≠ '[')
    (hobj : c ≠ '{') (fuel : Nat) (text : List Char) :
    readValue (fuel + 1) (c :: text) = readScalar (c :: text) := by
  rw [readValue, skipSpace_cons hs]
  split
  · rename_i heq
    exact absurd (List.cons.inj heq).1 harr
  · rename_i heq
    exact absurd (List.cons.inj heq).1 hobj
  · rfl

theorem readValue_int {value : Int} (h : -0x8000000000000000 ≤ value)
    (h' : value < 0x10000000000000000) (fuel : Nat) {rest : List Char} (hr : Number.Ends rest) :
    readValue (fuel + 1) (Decimal.ofInt value ++ rest) = .ok (.int value, rest) := by
  have hn := readScalar_int h h' hr
  obtain ⟨c, text, hc, hs⟩ := exists_cons_ofInt value
  rw [hc, List.cons_append] at hn ⊢
  have harr : c ≠ '[' := by
    rintro rfl
    simp [Number.startsWith, Number.isDigit] at hs
  have hobj : c ≠ '{' := by
    rintro rfl
    simp [Number.startsWith, Number.isDigit] at hs
  rw [readValue_eq_readScalar (isSpace_of_startsWith hs) harr hobj, hn]

-- A list whose first item is found where it has to start.
theorem readValue_list {fuel : Nat} {text rest : List Char} {items : List Json}
    (hs : skipSpace text = text) (hne : text.head? ≠ some ']')
    (h : readItems fuel text = .ok (items, rest)) :
    readValue (fuel + 1) ('[' :: text) = .ok (.arr items, rest) := by
  rw [readValue, skipSpace_cons (by decide)]
  simp only [hs]
  split
  · simp_all
  · simp only [h, bind, Except.bind]

theorem readValue_object {fuel : Nat} {text rest : List Char} {members : List (String × Json)}
    (hs : skipSpace text = text) (hne : text.head? ≠ some '}')
    (h : readMembers fuel text = .ok (members, rest)) :
    readValue (fuel + 1) ('{' :: text) = .ok (.obj members, rest) := by
  rw [readValue, skipSpace_cons (by decide)]
  simp only [hs]
  split
  · simp_all
  · simp only [h, bind, Except.bind]

theorem length_compact_pos {value : Json} (hp : value.Plain) : 0 < value.compact.length := by
  obtain ⟨c, text, hc, _⟩ := compact_head value hp
  rw [hc, List.length_cons]
  omega

theorem head?_compact_ne {value : Json} (hp : value.Plain) (rest : List Char) :
    (value.compact ++ rest).head? ≠ some ']' := by
  obtain ⟨c, text, hc, _, hne⟩ := compact_head value hp
  rw [hc, List.cons_append, List.head?_cons]
  exact fun h => hne (Option.some.inj h)

theorem skipSpace_write (key rest : List Char) :
    skipSpace (Literal.write key ++ rest) = Literal.write key ++ rest :=
  skipSpace_cons (by decide)

mutual

-- A written value is read back, whatever comes after it. Each character pays for two readers.
theorem readValue_compact (value : Json) (hp : value.Plain) (fuel : Nat)
    (hf : 2 * value.compact.length ≤ fuel + 1) {rest : List Char} (hr : Number.Ends rest) :
    readValue (fuel + 1) (value.compact ++ rest) = .ok (value, rest) := by
  cases value with
  | null => exact readValue_eq_readScalar (by decide) (by decide) (by decide) fuel _
  | bool value =>
      cases value with
      | true => exact readValue_eq_readScalar (by decide) (by decide) (by decide) fuel _
      | false => exact readValue_eq_readScalar (by decide) (by decide) (by decide) fuel _
  | int value => exact readValue_int hp.1 hp.2 fuel hr
  | float value => exact hp.elim
  | str text =>
      have hs := readScalar_str text rest
      rw [compact]
      rw [Literal.write, List.cons_append, List.cons_append] at hs ⊢
      rw [readValue_eq_readScalar (by decide) (by decide) (by decide), hs]
  | arr items =>
      cases items with
      | nil => rfl
      | cons item items =>
          simp only [compact, List.length_cons, List.length_append] at hf
          have hi := readItems_compact item items hp.1 hp.2 fuel (by omega) rest
          simp only [compact, List.cons_append, List.append_assoc, List.nil_append]
          exact readValue_list (skipSpace_compact hp.1 _) (head?_compact_ne hp.1 _) hi
  | obj members =>
      cases members with
      | nil => rfl
      | cons member members =>
          obtain ⟨key, value⟩ := member
          simp only [compact, compactMember, List.length_cons, List.length_append] at hf
          have hm := readMembers_compact key value members hp.1 hp.2 fuel (by omega) rest
          simp only [compact, compactMember, List.cons_append, List.append_assoc, List.nil_append]
          exact readValue_object (skipSpace_write _ _) (by simp [Literal.write]) hm
termination_by fuel + 1

theorem readItems_compact (item : Json) (items : List Json) (hp : item.Plain)
    (hps : PlainItems items) (fuel : Nat)
    (hf : 2 * (item.compact.length + (compactItems items).length) + 1 ≤ fuel) (rest : List Char) :
    readItems fuel (item.compact ++ (compactItems items ++ ']' :: rest)) =
      .ok (item :: items, rest) := by
  have hlen := length_compact_pos hp
  obtain ⟨fuel, rfl⟩ : ∃ n, fuel = n + 2 := ⟨fuel - 2, by omega⟩
  have hi := readValue_compact item hp fuel (by omega) (ends_items items rest)
  rw [readItems]
  simp only [hi, bind, Except.bind]
  cases items with
  | nil => rfl
  | cons next items =>
      simp only [compactItems, List.length_cons, List.length_append] at hf
      have hn := readItems_compact next items hps.1 hps.2 (fuel + 1) (by omega) rest
      simp only [compactItems, List.cons_append, List.append_assoc,
        skipSpace_cons (c := ',') (by decide), hn]
termination_by fuel

theorem readMembers_compact (key : String) (value : Json) (members : List (String × Json))
    (hp : value.Plain) (hps : PlainMembers members) (fuel : Nat)
    (hf : 2 * ((Literal.write key.toList).length + value.compact.length +
      (compactMembers members).length) + 1 ≤ fuel) (rest : List Char) :
    readMembers fuel (Literal.write key.toList ++ ':' :: (value.compact ++
      (compactMembers members ++ '}' :: rest))) = .ok ((key, value) :: members, rest) := by
  have hlen := length_compact_pos hp
  obtain ⟨fuel, rfl⟩ : ∃ n, fuel = n + 2 := ⟨fuel - 2, by omega⟩
  have hv := readValue_compact value hp fuel (by omega) (ends_members members rest)
  rw [readMembers]
  simp only [readKey_write, hv, bind, Except.bind]
  cases members with
  | nil => rfl
  | cons next members =>
      obtain ⟨nextKey, next⟩ := next
      simp only [compactMembers, compactMember, List.length_cons, List.length_append] at hf
      have hn := readMembers_compact nextKey next members hps.1 hps.2 (fuel + 1) (by omega) rest
      simp only [compactMembers, compactMember, List.cons_append, List.append_assoc,
        skipSpace_cons (c := ',') (by decide), hn]
termination_by fuel

end

-- The text of a value is read as that value, with nothing left over.
theorem parse_compact {value : Json} (hp : value.Plain) : parse value.compact = .ok value := by
  have h : readValue (2 * value.compact.length + 2) (value.compact ++ []) = .ok (value, []) :=
    readValue_compact value hp _ (by omega) trivial
  rw [List.append_nil] at h
  simp only [parse, h, bind, Except.bind]
  rfl

theorem compact_injective {v w : Json} (hv : v.Plain) (hw : w.Plain)
    (h : v.compact = w.compact) : v = w := by
  have hp := parse_compact hv
  rw [h, parse_compact hw] at hp
  exact (Except.ok.inj hp).symm

end DocRun.Json
