import DocRun.Text.Hidden.Blank
import DocRun.Text.Hidden.Extender

namespace DocRun

namespace Hidden

-- The search stops at the first range that starts behind the number.
def inRanges (n : Nat) : List (Nat × Nat) → Bool
  | [] => false
  | (low, high) :: ranges => low ≤ n && (n ≤ high || inRanges n ranges)

def ascending : List (Nat × Nat) → Bool
  | [] => true
  | [(low, high)] => low ≤ high
  | (low, high) :: (next, last) :: ranges =>
    low ≤ high && high < next && ascending ((next, last) :: ranges)

-- The second table starts at U+10000.
def inPlanes (basic supplementary : List (Nat × Nat)) (n : Nat) : Bool :=
  if n < 0x10000 then inRanges n basic else inRanges n supplementary

section

variable {low high n : Nat} {ranges : List (Nat × Nat)}

theorem le_of_ascending (h : ascending ((low, high) :: ranges)) : low ≤ high := by
  cases ranges with
  | nil => exact of_decide_eq_true h
  | cons range ranges =>
      simp only [ascending, Bool.and_eq_true, decide_eq_true_eq] at h
      exact h.1.1

theorem ascending_tail (h : ascending ((low, high) :: ranges)) : ascending ranges := by
  cases ranges with
  | nil => rfl
  | cons range ranges =>
      simp only [ascending, Bool.and_eq_true] at h
      exact h.2

theorem lt_of_ascending (h : ascending ((low, high) :: ranges)) {range : Nat × Nat}
    (hm : range ∈ ranges) : high < range.1 := by
  induction ranges generalizing low high with
  | nil => exact nomatch hm
  | cons first ranges ih =>
      obtain ⟨next, last⟩ := first
      have hnext : high < next := by
        simp only [ascending, Bool.and_eq_true, decide_eq_true_eq] at h
        exact h.1.2
      rcases List.mem_cons.mp hm with rfl | hm
      · exact hnext
      · have hlast := le_of_ascending (ascending_tail h)
        have hrange := ih (ascending_tail h) hm
        omega

-- Where the ranges are ascending nothing is missed by stopping early.
theorem inRanges_iff (h : ascending ranges) :
    inRanges n ranges ↔ ∃ range ∈ ranges, range.1 ≤ n ∧ n ≤ range.2 := by
  induction ranges with
  | nil => simp [inRanges]
  | cons range ranges ih =>
      obtain ⟨low, high⟩ := range
      simp only [inRanges, Bool.and_eq_true, Bool.or_eq_true, decide_eq_true_eq,
        ih (ascending_tail h), List.mem_cons, or_and_right, exists_or, exists_eq_left]
      constructor
      · rintro ⟨hlow, hhigh | hlater⟩
        · exact .inl ⟨hlow, hhigh⟩
        · exact .inr hlater
      · rintro (⟨hlow, hhigh⟩ | ⟨range, hm, hfirst, hlast⟩)
        · exact ⟨hlow, .inl hhigh⟩
        · have hle := le_of_ascending h
          have hlt := lt_of_ascending h hm
          exact ⟨by omega, .inr ⟨range, hm, hfirst, hlast⟩⟩

end

theorem inPlanes_iff {basic supplementary : List (Nat × Nat)} {n : Nat} (hb : ascending basic)
    (hs : ascending supplementary) :
    inPlanes basic supplementary n ↔
      ∃ range ∈ if n < 0x10000 then basic else supplementary, range.1 ≤ n ∧ n ≤ range.2 := by
  unfold inPlanes
  split
  · exact inRanges_iff hb
  · exact inRanges_iff hs

theorem ascending_blank : ascending blankBasic ∧ ascending blankSupplementary := by
  decide +kernel

theorem ascending_extender : ascending extenderBasic ∧ ascending extenderSupplementary := by
  decide +kernel

end Hidden

-- The characters that cannot be seen on their own.
def isHidden (c : Char) : Bool :=
  Hidden.inPlanes Hidden.blankBasic Hidden.blankSupplementary c.toNat
    || Hidden.inPlanes Hidden.extenderBasic Hidden.extenderSupplementary c.toNat

open Hidden in
theorem isHidden_iff (c : Char) :
    isHidden c ↔ ∃ range ∈ if c.toNat < 0x10000 then blankBasic ++ extenderBasic
      else blankSupplementary ++ extenderSupplementary, range.1 ≤ c.toNat ∧ c.toNat ≤ range.2 := by
  rw [isHidden, Bool.or_eq_true, inPlanes_iff ascending_blank.1 ascending_blank.2,
    inPlanes_iff ascending_extender.1 ascending_extender.2]
  split <;> simp only [List.mem_append, or_and_right, exists_or]

end DocRun
