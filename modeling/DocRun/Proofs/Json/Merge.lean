import DocRun.Json.Merge
import Mathlib.Data.List.Nodup

namespace DocRun.Json

-- A value in which no object repeats a key, at any depth.
inductive Distinct : Json → Prop
  | null : Distinct .null
  | bool (value : Bool) : Distinct (.bool value)
  | int (value : Int) : Distinct (.int value)
  | float (value : Float) : Distinct (.float value)
  | str (text : String) : Distinct (.str text)
  | arr {items : List Json} (h : ∀ item ∈ items, Distinct item) : Distinct (.arr items)
  | obj {members : List (String × Json)} (hk : (members.map Prod.fst).Nodup)
      (h : ∀ member ∈ members, Distinct member.2) : Distinct (.obj members)

section

variable {members : List (String × Json)}

theorem lastMembers_sublist (members : List (String × Json)) :
    (lastMembers members).Sublist members := by
  induction members with
  | nil => exact .slnil
  | cons member members ih =>
      rw [lastMembers]
      split
      · exact ih.cons _
      · exact ih.cons_cons _

theorem repeated_iff {key : String} :
    (members.any fun other => other.1 = key) = true ↔ key ∈ members.map Prod.fst := by
  simp only [List.any_eq_true, decide_eq_true_eq, List.mem_map]

theorem nodup_lastMembers (members : List (String × Json)) :
    ((lastMembers members).map Prod.fst).Nodup := by
  induction members with
  | nil => exact .nil
  | cons member members ih =>
      rw [lastMembers]
      split
      case isTrue => exact ih
      case isFalse h =>
        refine List.nodup_cons.mpr ⟨fun hm => h ?_, ih⟩
        exact repeated_iff.mpr (((lastMembers_sublist members).map Prod.fst).subset hm)

theorem lastMembers_of_nodup (h : (members.map Prod.fst).Nodup) : lastMembers members = members := by
  induction members with
  | nil => rfl
  | cons member members ih =>
      obtain ⟨hnew, hrest⟩ := List.nodup_cons.mp h
      rw [lastMembers, if_neg fun hr => hnew (repeated_iff.mp hr), ih hrest]

theorem lookup_eq_none_iff {key : String} :
    members.lookup key = none ↔ key ∉ members.map Prod.fst := by
  simp only [List.lookup_eq_none_iff, bne_iff_ne, List.mem_map, not_exists, not_and]
  exact ⟨fun h member hm he => h member hm he.symm, fun h member hm he => h member hm he.symm⟩

-- Under a key stands the last of the values that it was given.
theorem lookup_lastMembers (members : List (String × Json)) (key : String) :
    (lastMembers members).lookup key = members.reverse.lookup key := by
  induction members with
  | nil => rfl
  | cons member members ih =>
      obtain ⟨name, value⟩ := member
      rw [List.reverse_cons, List.lookup_append, ← ih, lastMembers]
      by_cases hkey : key = name
      · subst hkey
        split
        case isTrue h =>
          -- A later member has the key, so that this one is never reached.
          have hlater : (lastMembers members).lookup key ≠ none := by
            rw [ih, Ne, lookup_eq_none_iff, List.map_reverse, List.mem_reverse, not_not]
            exact repeated_iff.mp h
          obtain ⟨found, hfound⟩ := Option.ne_none_iff_exists'.mp hlater
          rw [hfound, Option.some_or]
        case isFalse h =>
          have hnone : (lastMembers members).lookup key = none := by
            rw [ih, lookup_eq_none_iff, List.map_reverse, List.mem_reverse]
            exact fun hm => h (repeated_iff.mpr hm)
          rw [hnone, Option.none_or, List.lookup_cons_self, List.lookup_cons_self]
      · have hne : (key == name) = false := beq_eq_false_iff_ne.mpr hkey
        have hother : [(name, value)].lookup key = none := by
          rw [List.lookup_cons, hne]
          rfl
        rw [hother, Option.or_none]
        split
        case isTrue => rfl
        case isFalse => rw [List.lookup_cons, hne]

end

theorem mergeItems_eq_map (items : List Json) : mergeItems items = items.map merge := by
  induction items with
  | nil => rfl
  | cons item items ih => rw [mergeItems, ih, List.map_cons]

theorem mergeMembers_eq_map (members : List (String × Json)) :
    mergeMembers members = members.map fun member => (member.1, member.2.merge) := by
  induction members with
  | nil => rfl
  | cons member members ih => rw [mergeMembers, ih, List.map_cons]

mutual

theorem distinct_merge (value : Json) : value.merge.Distinct := by
  cases value with
  | arr items => exact .arr (distinct_mergeItems items)
  | obj members =>
      refine .obj (nodup_lastMembers _) fun member hm => ?_
      exact distinct_mergeMembers members member ((lastMembers_sublist _).subset hm)
  | null => exact .null
  | bool value => exact .bool value
  | int value => exact .int value
  | float value => exact .float value
  | str text => exact .str text

theorem distinct_mergeItems (items : List Json) : ∀ item ∈ mergeItems items, item.Distinct := by
  cases items with
  | nil => exact nofun
  | cons item items =>
      exact List.forall_mem_cons.mpr ⟨distinct_merge item, distinct_mergeItems items⟩

theorem distinct_mergeMembers (members : List (String × Json)) :
    ∀ member ∈ mergeMembers members, member.2.Distinct := by
  cases members with
  | nil => exact nofun
  | cons member members =>
      exact List.forall_mem_cons.mpr ⟨distinct_merge member.2, distinct_mergeMembers members⟩

end

theorem merge_of_distinct {value : Json} (h : value.Distinct) : value.merge = value := by
  induction h with
  | arr _ ih => rw [merge, mergeItems_eq_map, List.map_congr_left ih, List.map_id']
  | @obj members hk _ ih =>
      have hsame : ∀ member ∈ members, (member.1, member.2.merge) = member :=
        fun member hm => Prod.ext rfl (ih member hm)
      rw [merge, mergeMembers_eq_map, List.map_congr_left hsame, List.map_id',
        lastMembers_of_nodup hk]
  | _ => rfl

-- Merging changes exactly the values in which some object repeats a key.
theorem merge_eq_self_iff {value : Json} : value.merge = value ↔ value.Distinct :=
  ⟨fun h => h ▸ value.distinct_merge, merge_of_distinct⟩

theorem lookup_merge (members : List (String × Json)) (key : String) :
    ∃ merged, (obj members).merge = obj merged ∧
      merged.lookup key = (members.reverse.lookup key).map merge := by
  refine ⟨_, rfl, ?_⟩
  rw [lookup_lastMembers, mergeMembers_eq_map, ← List.map_reverse]
  induction members.reverse with
  | nil => rfl
  | cons member members ih =>
      obtain ⟨name, value⟩ := member
      rw [List.map_cons, List.lookup_cons, List.lookup_cons]
      cases key == name with
      | true => rfl
      | false => exact ih

end DocRun.Json
