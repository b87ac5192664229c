import DocRun.Path
import Mathlib.Logic.Relation

namespace DocRun.Path

-- The four ways to shorten a spelling. Here `u` and `v` are any bytes, but a slash on its own
-- stands for the root and is not taken away.
inductive Shortens : List UInt8 → List UInt8 → Prop
  | slashes (u v : List UInt8) : Shortens (u ++ slash :: slash :: v) (u ++ slash :: v)
  | innerDot (u v : List UInt8) : Shortens (u ++ slash :: dot :: slash :: v) (u ++ slash :: v)
  | lastDot (u : List UInt8) : Shortens (u ++ [slash, dot]) (u ++ [slash])
  | lastSlash (u : List UInt8) (h : u ≠ []) : Shortens (u ++ [slash]) u

-- One path is turned into the other by shortening and its reverse, finitely often.
def Respelled (p q : Path) : Prop := Relation.EqvGen Shortens p.bytes q.bytes

theorem segments_slash (rest : List UInt8) : segments (slash :: rest) = [] :: segments rest := by
  rw [segments, if_pos rfl]

theorem segments_ne_nil (bytes : List UInt8) : segments bytes ≠ [] := by
  cases bytes with
  | nil => exact List.cons_ne_nil _ _
  | cons b rest =>
      by_cases hb : b = slash
      · rw [hb, segments_slash]
        exact List.cons_ne_nil _ _
      · rw [segments, if_neg hb]
        cases segments rest <;> exact List.cons_ne_nil _ _

-- Any byte but a slash goes into the first segment.
theorem exists_segments_of_ne {b : UInt8} (hb : b ≠ slash) (rest : List UInt8) :
    ∃ first others, segments rest = first :: others ∧
      segments (b :: rest) = (b :: first) :: others := by
  obtain ⟨first, others, hs⟩ := List.exists_cons_of_ne_nil (segments_ne_nil rest)
  refine ⟨first, others, hs, ?_⟩
  rw [segments, if_neg hb, hs, consFirst]

-- A slash divides the segments into those before it and those after it.
theorem segments_append (u v : List UInt8) :
    segments (u ++ slash :: v) = segments u ++ segments v := by
  induction u with
  | nil => exact segments_slash v
  | cons b u ih =>
      by_cases hb : b = slash
      · rw [hb, List.cons_append, segments_slash, segments_slash, ih, List.cons_append]
      · obtain ⟨first, others, hs, hb'⟩ := exists_segments_of_ne hb u
        rw [List.cons_append, segments, if_neg hb, ih, hs, hb']
        rfl

-- The segments in their order, each behind a slash.
def behind (segments : List (List UInt8)) : List UInt8 := segments.flatMap (slash :: ·)

theorem behind_cons (segment : List UInt8) (others : List (List UInt8)) :
    behind (segment :: others) = slash :: (segment ++ behind others) := rfl

-- A path is what its segments are, put together again.
theorem behind_segments (bytes : List UInt8) : behind (segments bytes) = slash :: bytes := by
  induction bytes with
  | nil => rfl
  | cons b rest ih =>
      by_cases hb : b = slash
      · rw [hb, segments_slash, behind_cons, ih, List.nil_append]
      · obtain ⟨first, others, hs, hb'⟩ := exists_segments_of_ne hb rest
        rw [hs, behind_cons] at ih
        rw [hb', behind_cons, List.cons_append, (List.cons.inj ih).2]

-- What a path means can be told from its first byte and its segments. There are three kinds:
-- the empty path, those from the root, and the others, of which the first segment is kept.
theorem components_empty : components ⟨[]⟩ = ⟨false, []⟩ := rfl

theorem components_slash (rest : List UInt8) :
    components ⟨slash :: rest⟩ = ⟨true, (segments rest).filter isName⟩ := by
  simp only [components, segments_slash]
  rfl

theorem components_of_ne {b : UInt8} (hb : b ≠ slash) (rest : List UInt8) :
    ∃ first others, first ≠ [] ∧ b :: rest = first ++ behind others ∧
      components ⟨b :: rest⟩ = ⟨false, first :: others.filter isName⟩ := by
  obtain ⟨first, others, -, hs⟩ := exists_segments_of_ne hb rest
  refine ⟨b :: first, others, List.cons_ne_nil _ _, ?_, ?_⟩
  · have hjoin := behind_segments (b :: rest)
    rw [hs, behind_cons] at hjoin
    exact (List.cons.inj hjoin).2.symm
  · have habsolute : decide (b = slash) = false := decide_eq_false hb
    simp only [components, hs, List.head?_cons, Option.some.injEq, habsolute]
    by_cases hd : b :: first = [dot]
    · rw [if_pos hd, hd]
      rfl
    · have hname : isName (b :: first) = true := by simp [isName, hd]
      rw [if_neg hd, List.filter_cons_of_pos hname]

-- Nothing that has a byte in it means the same as the empty path.
theorem components_eq_empty_iff {path : Path} :
    path.components = ⟨false, []⟩ ↔ path = .empty := by
  obtain ⟨bytes⟩ := path
  constructor
  · intro h
    cases bytes with
    | nil => rfl
    | cons b rest =>
        by_cases hb : b = slash
        · rw [hb, components_slash] at h
          exact nomatch h
        · obtain ⟨first, others, -, -, hc⟩ := components_of_ne hb rest
          rw [hc] at h
          exact nomatch h
  · intro h
    rw [h]
    exact components_empty

theorem same_iff {p q : Path} : p.same q = true ↔ p.components = q.components :=
  decide_eq_true_iff

theorem same_refl (path : Path) : path.same path = true := same_iff.mpr rfl

theorem eq_empty_iff_of_same {p q : Path} (h : p.same q = true) : p = .empty ↔ q = .empty := by
  rw [← components_eq_empty_iff, ← components_eq_empty_iff, same_iff.mp h]

section Sound

theorem components_ext {p q : List UInt8} (hhead : p.head? = q.head?)
    (hfirst : (segments p).head? = (segments q).head?)
    (hnames : (segments p).filter isName = (segments q).filter isName) :
    components ⟨p⟩ = components ⟨q⟩ := by
  simp only [components, hhead, hfirst, hnames]

theorem head?_segments_append (u v : List UInt8) :
    (segments (u ++ slash :: v)).head? = (segments u).head? := by
  obtain ⟨first, others, hs⟩ := List.exists_cons_of_ne_nil (segments_ne_nil u)
  rw [segments_append, hs, List.cons_append, List.head?_cons, List.head?_cons]

-- Behind a slash only the names matter.
theorem components_congr (u : List UInt8) {v w : List UInt8}
    (h : (segments v).filter isName = (segments w).filter isName) :
    components ⟨u ++ slash :: v⟩ = components ⟨u ++ slash :: w⟩ := by
  apply components_ext
  · cases u <;> rfl
  · rw [head?_segments_append, head?_segments_append]
  · rw [segments_append, segments_append, List.filter_append, List.filter_append, h]

theorem components_append_slash {u : List UInt8} (h : u ≠ []) :
    components ⟨u ++ [slash]⟩ = components ⟨u⟩ := by
  obtain ⟨b, rest, rfl⟩ := List.exists_cons_of_ne_nil h
  apply components_ext
  · rfl
  · exact head?_segments_append (b :: rest) []
  · rw [segments_append, List.filter_append]
    exact List.append_nil _

theorem components_of_shortens {p q : List UInt8} (h : Shortens p q) :
    components ⟨p⟩ = components ⟨q⟩ := by
  cases h with
  | slashes u v =>
      apply components_congr
      rw [segments_slash]
      rfl
  | innerDot u v =>
      apply components_congr
      rw [show dot :: slash :: v = [dot] ++ slash :: v from rfl, segments_append]
      rfl
  | lastDot u =>
      apply components_congr
      rfl
  | lastSlash _ h => exact components_append_slash h

theorem components_of_respelled {p q : List UInt8} (h : Relation.EqvGen Shortens p q) :
    components ⟨p⟩ = components ⟨q⟩ := by
  induction h with
  | rel _ _ h => exact components_of_shortens h
  | refl _ => rfl
  | symm _ _ _ ih => exact ih.symm
  | trans _ _ _ _ _ ih ih' => exact ih.trans ih'

end Sound

section Complete

-- The shortest spelling of what a path means.
def Components.spelling : Components → List UInt8
  | ⟨true, []⟩ => [slash]
  | ⟨true, name :: names⟩ => behind (name :: names)
  | ⟨false, []⟩ => []
  | ⟨false, name :: names⟩ => name ++ behind names

theorem eq_nil_or_dot {segment : List UInt8} (h : ¬ isName segment = true) :
    segment = [] ∨ segment = [dot] := by
  by_cases he : segment = []
  · exact .inl he
  · exact .inr (by simpa [isName, he] using h)

-- A segment that names nothing can go, as long as another one comes after it.
theorem respelled_skip {segment : List UInt8} (h : ¬ isName segment = true)
    (u next : List UInt8) (others : List (List UInt8)) :
    Relation.EqvGen Shortens (u ++ behind (segment :: next :: others))
      (u ++ behind (next :: others)) := by
  apply Relation.EqvGen.rel
  rcases eq_nil_or_dot h with rfl | rfl
  · exact .slashes u _
  · exact .innerDot u _

-- At the end it leaves its slash.
theorem respelled_end {segment : List UInt8} (h : ¬ isName segment = true) (u : List UInt8) :
    Relation.EqvGen Shortens (u ++ behind [segment]) (u ++ [slash]) := by
  rcases eq_nil_or_dot h with rfl | rfl
  · exact .refl _
  · exact .rel _ _ (.lastDot u)

-- Behind a beginning that is not empty, only the names need to stay.
theorem respelled_names {u : List UInt8} (hu : u ≠ []) (segments : List (List UInt8)) :
    Relation.EqvGen Shortens (u ++ behind segments) (u ++ behind (segments.filter isName)) := by
  induction segments generalizing u with
  | nil => exact .refl _
  | cons segment others ih =>
      by_cases hn : isName segment = true
      · have hlonger := ih (List.append_ne_nil_of_left_ne_nil hu (slash :: segment))
        rw [List.filter_cons_of_pos hn]
        simpa only [behind_cons, List.append_assoc, List.cons_append] using hlonger
      · rw [List.filter_cons_of_neg hn]
        cases others with
        | nil =>
            refine .trans _ _ _ (respelled_end hn u) (.rel _ _ ?_)
            simpa [behind] using Shortens.lastSlash u hu
        | cons next others => exact .trans _ _ _ (respelled_skip hn u next others) (ih hu)

-- From the root the same goes, except that the root itself stays.
theorem respelled_root {segments : List (List UInt8)} (h : segments ≠ []) :
    Relation.EqvGen Shortens (behind segments)
      (Components.spelling ⟨true, segments.filter isName⟩) := by
  induction segments with
  | nil => exact absurd rfl h
  | cons segment others ih =>
      by_cases hn : isName segment = true
      · rw [List.filter_cons_of_pos hn]
        exact respelled_names (List.cons_ne_nil slash segment) others
      · rw [List.filter_cons_of_neg hn]
        cases others with
        | nil => exact respelled_end hn []
        | cons next others =>
            exact .trans _ _ _ (respelled_skip hn [] next others) (ih (List.cons_ne_nil _ _))

theorem respelled_spelling (path : Path) :
    Relation.EqvGen Shortens path.bytes path.components.spelling := by
  obtain ⟨bytes⟩ := path
  cases bytes with
  | nil => exact .refl _
  | cons b rest =>
      by_cases hb : b = slash
      · rw [hb, components_slash, ← behind_segments]
        exact respelled_root (segments_ne_nil rest)
      · obtain ⟨first, others, hfirst, hjoin, hc⟩ := components_of_ne hb rest
        rw [hc]
        change Relation.EqvGen Shortens (b :: rest) _
        rw [hjoin]
        exact respelled_names hfirst others

end Complete

-- Equality of paths is textual: equal components are reached through one shortest spelling, and no
-- rewrite changes the components.
theorem same_iff_respelled {p q : Path} : p.same q = true ↔ p.Respelled q := by
  rw [same_iff]
  constructor
  · intro h
    have hq := respelled_spelling q
    rw [← h] at hq
    exact .trans _ _ _ (respelled_spelling p) (.symm _ _ hq)
  · exact components_of_respelled

end DocRun.Path
