import DocRun.Proofs.Utf8
import Mathlib.Data.Set.List

namespace DocRun.Utf8

section

-- A byte that continues no encoding.
variable {b : UInt8} (hb : isTail b = false)

include hb

theorem isSecondOfThree_of_not_tail (a : UInt8) : isSecondOfThree a b = false := by
  rw [Bool.eq_false_iff, Ne, isTail_iff] at hb
  rw [Bool.eq_false_iff, Ne, isSecondOfThree_iff]
  omega

theorem isSecondOfFour_of_not_tail (a : UInt8) : isSecondOfFour a b = false := by
  rw [Bool.eq_false_iff, Ne, isTail_iff] at hb
  rw [Bool.eq_false_iff, Ne, isSecondOfFour_iff]
  omega

theorem afterTwo_append (a : UInt8) (rest v : List UInt8) :
    afterTwo a (rest ++ b :: v) = ((afterTwo a rest).1, (afterTwo a rest).2 ++ b :: v) := by
  cases rest with
  | nil => simp [afterTwo, hb]
  | cons c rest =>
      simp only [List.cons_append, afterTwo]
      split <;> rfl

theorem afterThree_append (a : UInt8) (rest v : List UInt8) :
    afterThree a (rest ++ b :: v) = ((afterThree a rest).1, (afterThree a rest).2 ++ b :: v) := by
  match rest with
  | [] => simp [afterThree, isSecondOfThree_of_not_tail hb]
  | [c] =>
      simp only [List.cons_append, List.nil_append, afterThree, hb]
      split <;> rfl
  | c :: d :: rest =>
      simp only [List.cons_append, afterThree]
      split
      · split <;> rfl
      · rfl

theorem afterFour_append (a : UInt8) (rest v : List UInt8) :
    afterFour a (rest ++ b :: v) = ((afterFour a rest).1, (afterFour a rest).2 ++ b :: v) := by
  match rest with
  | [] => simp [afterFour, isSecondOfFour_of_not_tail hb]
  | [c] =>
      simp only [List.cons_append, List.nil_append, afterFour, hb]
      split <;> rfl
  | [c, d] =>
      simp only [List.cons_append, List.nil_append, afterFour, hb]
      split
      · split <;> rfl
      · rfl
  | c :: d :: e :: rest =>
      simp only [List.cons_append, afterFour]
      split
      · split
        · split <;> rfl
        · rfl
      · rfl

-- What stands before such a byte is cut up as if nothing came after it.
theorem next_append (a : UInt8) (rest v : List UInt8) :
    next a (rest ++ b :: v) = ((next a rest).1, (next a rest).2 ++ b :: v) := by
  unfold next
  split
  · rfl
  split
  · rfl
  split
  · exact afterTwo_append hb a rest v
  split
  · exact afterThree_append hb a rest v
  split
  · exact afterFour_append hb a rest v
  · rfl

theorem pieces_append (u v : List UInt8) : pieces (u ++ b :: v) = pieces u ++ pieces (b :: v) := by
  fun_induction pieces u with
  | case1 => rfl
  | case2 a rest ih => rw [List.cons_append, pieces, next_append hb, ih, List.cons_append]

end

-- The encoding of a character stays whole wherever it stands.
theorem pieces_append_encodeChar (u v : List UInt8) (c : Char) :
    pieces (u ++ (String.utf8EncodeChar c ++ v)) = pieces u ++ .scalar c :: pieces v := by
  obtain ⟨b, tails, hc, -, hb⟩ := exists_cons_encodeChar c
  rw [← pieces_encodeChar, hc, List.cons_append, pieces_append hb]

theorem pieces_append_encode {text : List Char} (h : text ≠ []) (u v : List UInt8) :
    pieces (u ++ (encode text ++ v)) = pieces u ++ (text.map .scalar ++ pieces v) := by
  obtain ⟨c, text, rfl⟩ := List.exists_cons_of_ne_nil h
  rw [← pieces_encode_append, encode, List.flatMap_cons, List.append_assoc,
    pieces_append_encodeChar, pieces_encodeChar]

theorem pieces_append_ascii {b : UInt8} (hb : b < 0x80) (u v : List UInt8) :
    pieces (u ++ b :: v) = pieces u ++ .scalar (Char.ofNat b.toNat) :: pieces v := by
  have hone := encodeChar_of_lt (n := b.toNat) (by simpa [UInt8.lt_iff_toNat_lt] using hb)
  rw [UInt8.ofNat_toNat] at hone
  rw [← pieces_append_encodeChar, hone]
  rfl

theorem lossy_append_encode {text : List Char} (h : text ≠ []) (u v : List UInt8) :
    lossy (u ++ (encode text ++ v)) = lossy u ++ (text ++ lossy v) := by
  simp only [lossy, pieces_append_encode h, List.map_append, List.map_map]
  rw [show Piece.lossyChar ∘ Piece.scalar = id from rfl, List.map_id]

theorem lossy_append_ascii {a : UInt8} (ha : a < 0x80) (u v : List UInt8) :
    lossy (u ++ a :: v) = lossy u ++ Char.ofNat a.toNat :: lossy v := by
  simp only [lossy, pieces_append_ascii ha, List.map_append, List.map_cons, Piece.lossyChar]

-- Bytes are the encoding of a text if all of their pieces are characters.
theorem exists_encode_iff {bytes : List UInt8} :
    (∃ text, bytes = encode text) ↔ ∀ piece ∈ pieces bytes, piece ∈ Set.range Piece.scalar := by
  constructor
  · rintro ⟨text, rfl⟩ piece hp
    rw [pieces_encode] at hp
    obtain ⟨c, -, rfl⟩ := List.mem_map.mp hp
    exact ⟨c, rfl⟩
  · intro h
    have hrange : pieces bytes ∈ Set.range (List.map Piece.scalar) := by
      rwa [Set.range_list_map]
    obtain ⟨text, ht⟩ := hrange
    refine ⟨text, ?_⟩
    rw [← pieces_bytes bytes, ← ht, encode, List.flatMap_map]
    rfl

-- So a byte below 0x80 can neither complete nor break an encoding around it.
theorem exists_encode_append_iff {b : UInt8} (hb : b < 0x80) {u v : List UInt8} :
    (∃ text, u ++ b :: v = encode text) ↔
      (∃ text, u = encode text) ∧ ∃ text, v = encode text := by
  simp only [exists_encode_iff, pieces_append_ascii hb, List.forall_mem_append,
    List.forall_mem_cons]
  constructor
  · rintro ⟨hu, -, hv⟩
    exact ⟨hu, hv⟩
  · rintro ⟨hu, hv⟩
    exact ⟨hu, ⟨_, rfl⟩, hv⟩

end DocRun.Utf8
