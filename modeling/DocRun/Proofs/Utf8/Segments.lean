import DocRun.Proofs.Utf8

namespace DocRun.Utf8

-- A start of the encoding of some character.
def Begins (part : List UInt8) : Prop := ∃ c, part <+: String.utf8EncodeChar c

-- One ill-formed part and what comes after it.
inductive Stray : List UInt8 → List UInt8 → Prop
  -- the longest start of an encoding, where no encoding is complete
  | start {part rest : List UInt8} (hne : part ≠ []) (hs : Begins part)
      (hc : ∀ c, ¬String.utf8EncodeChar c <+: part ++ rest)
      (hmax : ∀ longer, longer <+: part ++ rest → Begins longer → longer.length ≤ part.length) :
      Stray part rest
  -- a byte that no encoding starts with
  | byte {b : UInt8} (rest : List UInt8) (h : ¬Begins [b]) : Stray [b] rest

-- Bytes cut up into encodings of characters and ill-formed parts.
inductive Cut : List UInt8 → List Piece → Prop
  | nil : Cut [] []
  | scalar (c : Char) {rest : List UInt8} {ps : List Piece} (h : Cut rest ps) :
      Cut (String.utf8EncodeChar c ++ rest) (.scalar c :: ps)
  | stray {part rest : List UInt8} {ps : List Piece} (hs : Stray part rest) (h : Cut rest ps) :
      Cut (part ++ rest) (.stray part :: ps)

theorem Begins.of_longer {part longer : List UInt8} (h : Begins longer) (hp : part <+: longer) :
    Begins part := by
  obtain ⟨c, hc⟩ := h
  exact ⟨c, hp.trans hc⟩

-- Where an encoding is complete, it is what is cut off.
theorem next_of_encodeChar {a : UInt8} {rest : List UInt8} {c : Char}
    (h : String.utf8EncodeChar c <+: a :: rest) : (next a rest).1 = .scalar c := by
  obtain ⟨more, hm⟩ := h
  have hp := pieces_encodeChar c more
  rw [hm, pieces] at hp
  exact (List.cons.inj hp).1

-- The first byte says which form is tried.
theorem next_cases (a : UInt8) :
    (∀ rest, ∃ c, next a rest = (.scalar c, rest)) ∨
    (∀ rest, next a rest = (.stray [a], rest)) ∨
    0xC2 ≤ a.toNat ∧ a.toNat < 0xE0 ∧ (∀ rest, next a rest = afterTwo a rest) ∨
    0xE0 ≤ a.toNat ∧ a.toNat < 0xF0 ∧ (∀ rest, next a rest = afterThree a rest) ∨
    0xF0 ≤ a.toNat ∧ a.toNat < 0xF5 ∧ ∀ rest, next a rest = afterFour a rest := by
  simp only [next, UInt8.lt_iff_toNat_lt, UInt8.reduceToNat]
  split
  · exact .inl fun rest => ⟨_, rfl⟩
  split
  · exact .inr (.inl fun rest => rfl)
  split
  · exact .inr (.inr (.inl ⟨by omega, by omega, fun rest => rfl⟩))
  split
  · exact .inr (.inr (.inr (.inl ⟨by omega, by omega, fun rest => rfl⟩)))
  split
  · exact .inr (.inr (.inr (.inr ⟨by omega, by omega, fun rest => rfl⟩)))
  · exact .inr (.inl fun rest => rfl)

-- The byte after an ill-formed part ends it, whatever comes later.
section

variable {a x : UInt8} {rest part left : List UInt8} (other : List UInt8)

theorem afterTwo_stray : afterTwo a rest = (.stray part, x :: left) →
    afterTwo a (part.tail ++ x :: other) = (.stray part, x :: other) := by
  fun_cases afterTwo a rest <;> rintro ⟨⟩
  simp [afterTwo, *]

theorem afterThree_stray : afterThree a rest = (.stray part, x :: left) →
    afterThree a (part.tail ++ x :: other) = (.stray part, x :: other) := by
  fun_cases afterThree a rest <;> rintro ⟨⟩ <;> simp [afterThree, *]

theorem afterFour_stray : afterFour a rest = (.stray part, x :: left) →
    afterFour a (part.tail ++ x :: other) = (.stray part, x :: other) := by
  fun_cases afterFour a rest <;> rintro ⟨⟩ <;> simp [afterFour, *]

theorem next_stray (h : next a rest = (.stray part, x :: left)) :
    next a (part.tail ++ x :: other) = (.stray part, x :: other) := by
  obtain hn | hn | ⟨-, -, hn⟩ | ⟨-, -, hn⟩ | ⟨-, -, hn⟩ := next_cases a
  · obtain ⟨c, hc⟩ := hn rest
    rw [hc] at h
    exact nomatch h
  · rw [hn] at h ⊢
    obtain ⟨rfl, -⟩ := h
    rfl
  · rw [hn] at h ⊢
    exact afterTwo_stray other h
  · rw [hn] at h ⊢
    exact afterThree_stray other h
  · rw [hn] at h ⊢
    exact afterFour_stray other h

end

-- The window on the second byte of a longer form is never empty.
theorem exists_isSecondOfThree (a : UInt8) : ∃ b, isSecondOfThree a b = true := by
  refine ⟨if a.toNat = 0xE0 then 0xA0 else 0x80, isSecondOfThree_iff.mpr ?_⟩
  split <;> simp <;> omega

theorem exists_isSecondOfFour (a : UInt8) : ∃ b, isSecondOfFour a b = true := by
  refine ⟨if a.toNat = 0xF0 then 0x90 else 0x80, isSecondOfFour_iff.mpr ?_⟩
  split <;> simp <;> omega

theorem isTail_first : isTail 0x80 = true := by decide

theorem begins_two {a : UInt8} (ha : 0xC2 ≤ a.toNat) (ha' : a.toNat < 0xE0) : Begins [a] :=
  ⟨scalarOfTwo a 0x80, [0x80], (encodeChar_scalarOfTwo ha ha' isTail_first).symm⟩

theorem begins_three {a b : UInt8} (ha : 0xE0 ≤ a.toNat) (ha' : a.toNat < 0xF0)
    (hb : isSecondOfThree a b) : Begins [a, b] :=
  ⟨scalarOfThree a b 0x80, [0x80], (encodeChar_scalarOfThree ha ha' hb isTail_first).symm⟩

theorem begins_four {a b c : UInt8} (ha : 0xF0 ≤ a.toNat) (ha' : a.toNat < 0xF5)
    (hb : isSecondOfFour a b) (hc : isTail c) : Begins [a, b, c] :=
  ⟨scalarOfFour a b c 0x80, [0x80], (encodeChar_scalarOfFour ha ha' hb hc isTail_first).symm⟩

theorem begins_of_afterTwo {a : UInt8} (ha : 0xC2 ≤ a.toNat) (ha' : a.toNat < 0xE0)
    {rest part left : List UInt8} : afterTwo a rest = (.stray part, left) → Begins part := by
  fun_cases afterTwo a rest <;> rintro ⟨⟩
  · exact begins_two ha ha'
  · exact begins_two ha ha'

theorem begins_of_afterThree {a : UInt8} (ha : 0xE0 ≤ a.toNat) (ha' : a.toNat < 0xF0)
    {rest part left : List UInt8} : afterThree a rest = (.stray part, left) → Begins part := by
  obtain ⟨second, hs⟩ := exists_isSecondOfThree a
  have hone : Begins [a] := (begins_three ha ha' hs).of_longer ⟨[second], rfl⟩
  fun_cases afterThree a rest <;> rintro ⟨⟩
  · exact hone
  · exact begins_three ha ha' ‹_›
  · exact begins_three ha ha' ‹_›
  · exact hone

theorem begins_of_afterFour {a : UInt8} (ha : 0xF0 ≤ a.toNat) (ha' : a.toNat < 0xF5)
    {rest part left : List UInt8} : afterFour a rest = (.stray part, left) → Begins part := by
  have htwo : ∀ b, isSecondOfFour a b → Begins [a, b] := fun b hb =>
    (begins_four ha ha' hb isTail_first).of_longer ⟨[0x80], rfl⟩
  obtain ⟨second, hs⟩ := exists_isSecondOfFour a
  have hone : Begins [a] := (htwo second hs).of_longer ⟨[second], rfl⟩
  fun_cases afterFour a rest <;> rintro ⟨⟩
  · exact hone
  · exact htwo _ ‹_›
  · exact begins_four ha ha' ‹_› ‹_›
  · exact begins_four ha ha' ‹_› ‹_›
  · exact htwo _ ‹_›
  · exact hone

theorem begins_or_byte {a : UInt8} {rest part left : List UInt8}
    (h : next a rest = (.stray part, left)) :
    Begins part ∨ part = [a] ∧ ∀ other, next a other = (.stray [a], other) := by
  obtain hn | hn | ⟨ha, ha', hn⟩ | ⟨ha, ha', hn⟩ | ⟨ha, ha', hn⟩ := next_cases a
  · obtain ⟨c, hc⟩ := hn rest
    rw [hc] at h
    exact nomatch h
  · rw [hn] at h
    obtain ⟨rfl, -⟩ := h
    exact .inr ⟨rfl, hn⟩
  · rw [hn] at h
    exact .inl (begins_of_afterTwo ha ha' h)
  · rw [hn] at h
    exact .inl (begins_of_afterThree ha ha' h)
  · rw [hn] at h
    exact .inl (begins_of_afterFour ha ha' h)

theorem not_encodeChar_of_next {a : UInt8} {rest part left : List UInt8}
    (h : next a rest = (.stray part, left)) (c : Char) :
    ¬String.utf8EncodeChar c <+: a :: rest := by
  intro hc
  have hn := next_of_encodeChar hc
  rw [h] at hn
  exact nomatch hn

-- An ill-formed part starts with the byte it is cut at.
theorem exists_tail_of_next {a : UInt8} {rest part left : List UInt8}
    (h : next a rest = (.stray part, left)) : ∃ tail, part = a :: tail ∧ rest = tail ++ left := by
  have hb := next_bytes a rest
  have hl := length_next_le a rest
  rw [h] at hb hl
  cases part with
  | nil =>
      have hlen := congrArg List.length hb
      simp only [Piece.bytes, List.nil_append, List.length_cons] at hlen hl
      omega
  | cons b tail =>
      obtain ⟨rfl, rfl⟩ := List.cons.inj hb
      exact ⟨tail, rfl, rfl⟩

-- A longer start would go on with the byte after the part, which ends every start of this kind.
theorem length_le_of_next {a : UInt8} {rest part left : List UInt8}
    (h : next a rest = (.stray part, left)) {longer : List UInt8} (hp : longer <+: a :: rest)
    (hb : Begins longer) : longer.length ≤ part.length := by
  obtain ⟨tail, rfl, rfl⟩ := exists_tail_of_next h
  refine Nat.le_of_not_lt fun hlen => ?_
  obtain ⟨more, rfl⟩ : a :: tail <+: longer :=
    List.prefix_of_prefix_length_le ⟨left, rfl⟩ hp (by omega)
  obtain ⟨x, more, rfl⟩ := List.exists_cons_of_ne_nil (l := more) (by rintro rfl; simp at hlen)
  rw [← List.cons_append, List.prefix_append_right_inj] at hp
  obtain ⟨after, rfl⟩ := hp
  obtain ⟨c, other, hc⟩ := hb
  refine not_encodeChar_of_next (next_stray (more ++ other) h) c ⟨[], ?_⟩
  rw [← hc]
  simp

theorem stray_of_next {a : UInt8} {rest part left : List UInt8}
    (h : next a rest = (.stray part, left)) : Stray part left := by
  obtain ⟨tail, rfl, rfl⟩ := exists_tail_of_next h
  obtain hb | ⟨hpart, hn⟩ := begins_or_byte h
  · exact .start (List.cons_ne_nil a tail) hb (not_encodeChar_of_next h)
      fun longer hp hl => length_le_of_next h hp hl
  · rw [hpart]
    refine .byte left fun ⟨c, other, hc⟩ => ?_
    exact not_encodeChar_of_next (hn other) c ⟨[], by rw [List.append_nil, ← hc]; rfl⟩

theorem Stray.ne_nil {part rest : List UInt8} (h : Stray part rest) : part ≠ [] := by
  cases h with
  | start hne _ _ _ => exact hne
  | byte _ _ => exact List.cons_ne_nil _ _

-- Nothing of one part is left to another.
theorem Stray.unique {part rest other more : List UInt8} (h : Stray part rest)
    (ho : Stray other more) (he : part ++ rest = other ++ more) : part = other ∧ rest = more := by
  refine List.append_inj he ?_
  cases h with
  | start hne hs hc hmax =>
      cases ho with
      | start _ hs' _ hmax' =>
          have hle := hmax other (he ▸ List.prefix_append other more) hs'
          have hge := hmax' part (he ▸ List.prefix_append part rest) hs
          omega
      | @byte b _ hb =>
          obtain ⟨c, tail, rfl⟩ := List.exists_cons_of_ne_nil hne
          obtain ⟨rfl, -⟩ := List.cons.inj he
          exact absurd (hs.of_longer ⟨tail, rfl⟩) hb
  | @byte b _ hb =>
      cases ho with
      | start hne hs _ _ =>
          obtain ⟨c, tail, rfl⟩ := List.exists_cons_of_ne_nil hne
          obtain ⟨rfl, -⟩ := List.cons.inj he
          exact absurd (hs.of_longer ⟨tail, rfl⟩) hb
      | byte _ _ => rfl

theorem Stray.not_encodeChar {part rest : List UInt8} (h : Stray part rest) (c : Char) :
    ¬String.utf8EncodeChar c <+: part ++ rest := by
  cases h with
  | start _ _ hc _ => exact hc c
  | byte _ hb =>
      rintro ⟨more, hm⟩
      obtain ⟨b, tail, hc, -, -⟩ := exists_cons_encodeChar c
      rw [hc] at hm
      obtain ⟨rfl, -⟩ := List.cons.inj hm
      exact hb ⟨c, tail, hc.symm⟩

-- A start of an encoding that is not all of it has one to three bytes.
theorem Stray.length_pos_le {part rest : List UInt8} (h : Stray part rest) :
    0 < part.length ∧ part.length ≤ 3 := by
  refine ⟨List.length_pos_iff.mpr h.ne_nil, ?_⟩
  cases h with
  | start _ hs hc _ =>
      obtain ⟨c, hp⟩ := hs
      obtain ⟨a, tails, he, hle, -⟩ := exists_cons_encodeChar c
      have hlen := congrArg List.length he
      rw [List.length_cons] at hlen
      have hne : part.length ≠ (String.utf8EncodeChar c).length := fun hl =>
        hc c (hp.eq_of_length hl ▸ List.prefix_append part rest)
      have hpart := hp.length_le
      omega
  | byte _ _ => exact Nat.le_add_left 1 2

-- An ill-formed part is cut off whole.
theorem Stray.pieces {part rest : List UInt8} (h : Stray part rest) :
    pieces (part ++ rest) = .stray part :: pieces rest := by
  obtain ⟨a, tail, rfl⟩ := List.exists_cons_of_ne_nil h.ne_nil
  have hb := next_bytes a (tail ++ rest)
  rw [List.cons_append, Utf8.pieces]
  generalize hn : next a (tail ++ rest) = cut at hb
  obtain ⟨piece, left⟩ := cut
  cases piece with
  | scalar c => exact absurd ⟨left, hb⟩ (h.not_encodeChar c)
  | stray part =>
      obtain ⟨rfl, rfl⟩ := (stray_of_next hn).unique h hb
      rfl

theorem Cut.length_stray {bytes : List UInt8} {ps : List Piece} (h : Cut bytes ps)
    {part : List UInt8} (hp : .stray part ∈ ps) : 0 < part.length ∧ part.length ≤ 3 := by
  induction h with
  | nil => exact absurd hp List.not_mem_nil
  | scalar c _ ih =>
      obtain hp | hp := List.mem_cons.mp hp
      · exact nomatch hp
      · exact ih hp
  | stray hs _ ih =>
      obtain hp | hp := List.mem_cons.mp hp
      · obtain rfl := Piece.stray.inj hp
        exact hs.length_pos_le
      · exact ih hp

theorem cut_pieces (bytes : List UInt8) : Cut bytes (pieces bytes) := by
  fun_induction pieces bytes with
  | case1 => exact .nil
  | case2 a rest ih =>
      have hb := next_bytes a rest
      generalize hn : next a rest = cut at ih hb
      obtain ⟨piece, left⟩ := cut
      cases piece with
      | scalar c => exact hb ▸ .scalar c ih
      | stray part => exact hb ▸ .stray (stray_of_next hn) ih

-- There is one way to cut bytes up, and it is the one taken.
theorem cut_iff {bytes : List UInt8} {ps : List Piece} : Cut bytes ps ↔ ps = pieces bytes := by
  constructor
  · intro h
    induction h with
    | nil => rw [pieces]
    | scalar c _ ih => rw [pieces_encodeChar, ih]
    | stray hs _ ih => rw [hs.pieces, ih]
  · rintro rfl
    exact cut_pieces bytes

end DocRun.Utf8
