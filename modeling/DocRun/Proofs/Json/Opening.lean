import DocRun.Proofs.Json.Spelling

namespace DocRun.Decimal

open Json.Number (isDigit startsWith exists_cons_ofNat)

theorem exists_cons_render (x : Number) : ∃ c text, x.render = c :: text ∧ isDigit c = true := by
  obtain ⟨c, cs, hc, hd⟩ := exists_cons_ofNat x.digits
  unfold Number.render
  simp only [hc]
  split
  · exact ⟨c, _, rfl, hd⟩
  split
  · rename_i hp
    obtain ⟨k, hk⟩ : ∃ k, ((c :: cs).length + x.exponent).toNat = k + 1 :=
      ⟨((c :: cs).length + x.exponent).toNat - 1, by omega⟩
    rw [hk]
    exact ⟨c, _, rfl, hd⟩
  split
  · exact ⟨'0', _, rfl, by decide⟩
  · exact ⟨c, _, rfl, hd⟩

theorem exists_cons_renderFloat (x : Float) :
    ∃ c text, renderFloat x = c :: text ∧ startsWith c = true := by
  have hmagnitude : ∀ y : Number, ∃ c text, y.render = c :: text ∧ startsWith c = true := by
    intro y
    obtain ⟨c, text, hc, hd⟩ := exists_cons_render y
    exact ⟨c, text, hc, by simp [startsWith, hd]⟩
  simp only [renderFloat]
  split
  · exact ⟨'-', _, rfl, by decide⟩
  rw [List.nil_append]
  split
  · split
    · exact ⟨'0', _, rfl, by decide⟩
    · exact hmagnitude _
  · exact hmagnitude _

end DocRun.Decimal

namespace DocRun.Json

theorem blank_newLine (depth : Nat) : Blank (newLine depth) := by
  intro c hc
  rcases List.mem_cons.mp hc with rfl | hc
  · exact .inr (.inr (.inl rfl))
  · exact .inl (List.eq_of_mem_replicate hc)

theorem blank_space : Blank [' '] := by
  intro c hc
  exact .inl (List.mem_singleton.mp hc)

-- Space or a closing brace makes no number longer.
theorem ends_of_blank {space : List Char} (h : Blank space) (rest : List Char) :
    Number.Ends (space ++ '}' :: rest) := by
  cases space with
  | nil => exact ⟨rfl, by decide, by decide, by decide⟩
  | cons c space =>
      rcases h c List.mem_cons_self with rfl | rfl | rfl | rfl <;>
        exact ⟨rfl, by decide, by decide, by decide⟩

-- The text of a value as far as its kind shows. Nothing is said of what a list or an object holds.
inductive Opens : Json → List Char → Prop
  | null : Opens .null nullText
  | bool (value : Bool) : Opens (.bool value) (writeBool value)
  | int (value : Int) : Opens (.int value) (Decimal.ofInt value)
  | float (value : Float) : Opens (.float value) (writeFloat value)
  | str (text : String) : Opens (.str text) (Literal.write text.toList)
  | arr (items : List Json) (text : List Char) : Opens (.arr items) ('[' :: text)
  | obj (members : List (String × Json)) (text : List Char) : Opens (.obj members) ('{' :: text)

theorem opens_compact (value : Json) : Opens value value.compact := by
  cases value with
  | null => exact .null
  | bool value => exact .bool value
  | int value => exact .int value
  | float value => exact .float value
  | str text => exact .str text
  | arr items => cases items <;> exact .arr _ _
  | obj members => cases members <;> exact .obj _ _

theorem opens_pretty (depth : Nat) (value : Json) : Opens value (value.pretty depth) := by
  cases value with
  | null => exact .null
  | bool value => exact .bool value
  | int value => exact .int value
  | float value => exact .float value
  | str text => exact .str text
  | arr items => cases items <;> exact .arr _ _
  | obj members => cases members <;> exact .obj _ _

theorem ne_of_startsWith {c d : Char} (hc : Number.startsWith c = true)
    (hd : Number.startsWith d = false) : c ≠ d := by
  rintro rfl
  rw [hd] at hc
  exact Bool.false_ne_true hc

-- How the text of a value starts. Quotes and braces stand in front of strings and objects only.
structure Starts (value : Json) (c : Char) (tail : List Char) : Prop where
  space : isSpace c = false
  quote : c = '"' → ∃ text, value = .str text
  brace : c = '{' → ∃ members, value = .obj members
  letter : c = 'n' → c :: tail = nullText

theorem starts_of_startsWith (value : Json) {c : Char} (h : Number.startsWith c = true)
    (tail : List Char) : Starts value c tail where
  space := isSpace_of_startsWith h
  quote := fun hc => absurd hc (ne_of_startsWith h (by decide))
  brace := fun hc => absurd hc (ne_of_startsWith h (by decide))
  letter := fun hc => absurd hc (ne_of_startsWith h (by decide))

theorem starts_nullText (value : Json) : Starts value 'n' ['u', 'l', 'l'] where
  space := by decide
  quote := nofun
  brace := nofun
  letter := fun _ => rfl

theorem Opens.starts {value : Json} {text : List Char} (h : Opens value text) :
    ∃ c tail, text = c :: tail ∧ Starts value c tail := by
  cases h with
  | null => exact ⟨_, _, rfl, starts_nullText .null⟩
  | bool value => cases value <;> exact ⟨_, _, rfl, by decide, nofun, nofun, nofun⟩
  | int value =>
      obtain ⟨c, tail, hc, hs⟩ := exists_cons_ofInt value
      exact ⟨c, tail, hc, starts_of_startsWith _ hs tail⟩
  | float value =>
      by_cases hf : value.isFinite = true
      · obtain ⟨c, tail, hc, hs⟩ := Decimal.exists_cons_renderFloat value
        rw [writeFloat, if_pos hf]
        exact ⟨c, tail, hc, starts_of_startsWith _ hs tail⟩
      · rw [writeFloat, if_neg hf]
        exact ⟨_, _, rfl, starts_nullText (.float value)⟩
  | str text => exact ⟨_, _, rfl, by decide, fun _ => ⟨text, rfl⟩, nofun, nofun⟩
  | arr items text => exact ⟨_, _, rfl, by decide, nofun, nofun, nofun⟩
  | obj members text => exact ⟨_, _, rfl, by decide, nofun, fun _ => ⟨members, rfl⟩, nofun⟩

-- Both layouts of a value, up to the first comma between the members of an object.
inductive Rendered : Json → List Char → Prop
  | other {value : Json} {text : List Char} (h : Opens value text)
      (hobj : ∀ members, value ≠ .obj members) : Rendered value text
  | empty : Rendered (.obj []) ['{', '}']
  | single (key : String) {value : Json} {before gap text after : List Char} (hb : Blank before)
      (hg : Blank gap) (h : Opens value text) (ha : Blank after) :
      Rendered (.obj [(key, value)]) ('{' :: (before ++ (Literal.write key.toList ++ ':' ::
        (gap ++ (text ++ (after ++ ['}']))))))
  | several (key : String) {value : Json} (member : String × Json) (members : List (String × Json))
      {before gap text : List Char} (hb : Blank before) (hg : Blank gap) (h : Opens value text)
      (rest : List Char) :
      Rendered (.obj ((key, value) :: member :: members)) ('{' :: (before ++
        (Literal.write key.toList ++ ':' :: (gap ++ (text ++ ',' :: rest)))))

theorem rendered_compact (value : Json) : Rendered value value.compact := by
  cases value with
  | obj members =>
      match members with
      | [] => exact .empty
      | [(key, value)] =>
          have h := Rendered.single key blank_nil blank_nil (opens_compact value) blank_nil
          simpa only [compact, compactMember, compactMembers, List.append_assoc, List.cons_append,
            List.nil_append] using h
      | (key, value) :: (other, next) :: members =>
          have h := Rendered.several key (other, next) members blank_nil blank_nil
            (opens_compact value) (compactMember (other, next) ++ (compactMembers members ++ ['}']))
          simpa only [compact, compactMember, compactMembers, List.append_assoc, List.cons_append,
            List.nil_append] using h
  | _ => exact .other (opens_compact _) (by simp)

theorem rendered_pretty (value : Json) : Rendered value (value.pretty 0) := by
  cases value with
  | obj members =>
      match members with
      | [] => exact .empty
      | [(key, value)] =>
          have h := Rendered.single key (blank_newLine 1) blank_space (opens_pretty 1 value)
            (blank_newLine 0)
          simpa only [pretty, prettyMember, prettyMembers, List.append_assoc, List.cons_append,
            List.nil_append] using h
      | (key, value) :: (other, next) :: members =>
          have h := Rendered.several key (other, next) members (blank_newLine 1) blank_space
            (opens_pretty 1 value) (newLine 1 ++ (prettyMember 1 (other, next) ++
              (prettyMembers 1 members ++ (newLine 0 ++ ['}']))))
          simpa only [pretty, prettyMember, prettyMembers, List.append_assoc, List.cons_append,
            List.nil_append] using h
  | _ => exact .other (opens_pretty 0 _) (by simp)

end DocRun.Json
