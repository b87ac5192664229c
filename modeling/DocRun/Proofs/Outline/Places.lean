import DocRun.Proofs.Outline.Layout

namespace DocRun.Outline

-- Between the quotes of a literal, and outside of all literals. The quotes themselves are neither.
def Place.isInner (place : Place) (c : Char) : Bool := place ≠ .outside && place.next c ≠ .outside

def Place.isOuter (place : Place) (c : Char) : Bool := place = .outside && place.next c = .outside

-- The characters that are wanted where they stand.
def select (want : Place → Char → Bool) (place : Place) : List Char → List Char
  | [] => []
  | c :: rest =>
    if want place c then c :: select want (place.next c) rest else select want (place.next c) rest

def inner (text : List Char) : List Char := select Place.isInner .outside text

def outer (text : List Char) : List Char := select Place.isOuter .outside text

theorem Place.next_outside {c : Char} (h : c ≠ '"') : Place.outside.next c = .outside := if_neg h

section Sift

variable {drop : Char → List Char → Bool}

-- What is dropped outside of the literals leaves their insides alone.
theorem select_inner_sift (hq : ∀ rest, drop '"' rest = false) (place : Place)
    (text : List Char) :
    select Place.isInner place (sift drop place text) = select Place.isInner place text := by
  induction text generalizing place with
  | nil => rfl
  | cons c rest ih =>
      by_cases h : place = .outside ∧ drop c rest = true
      · obtain ⟨rfl, hd⟩ := h
        have hc : c ≠ '"' := by
          rintro rfl
          rw [hq] at hd
          exact Bool.false_ne_true hd
        have hinner : Place.outside.isInner c = false := rfl
        rw [sift_of_drop hd, ih, select, hinner, Place.next_outside hc]
        rfl
      · rw [sift, if_neg h, select, select, ih]

theorem inner_squeeze (text : List Char) : inner (squeeze text) = inner text :=
  select_inner_sift (fun _ => rfl) .outside text

theorem inner_clean (text : List Char) : inner (clean text) = inner text := by
  rw [← inner_squeeze text]
  exact select_inner_sift (fun _ => rfl) .outside (squeeze text)

end Sift

-- A text cut up into literals and the characters between them.
inductive Marked (out within : Char → Prop) : List Char → Prop
  | nil : Marked out within []
  | char {c : Char} {rest : List Char} (hq : c ≠ '"') (hc : out c) (h : Marked out within rest) :
      Marked out within (c :: rest)
  | literal {body rest : List Char} (hb : Quoted.Body body) (hw : ∀ c ∈ body, within c)
      (h : Marked out within rest) : Marked out within ('"' :: (body ++ '"' :: rest))

section

variable {out within : Char → Prop} {s t text : List Char}

theorem Marked.append (hs : Marked out within s) (ht : Marked out within t) :
    Marked out within (s ++ t) := by
  induction hs with
  | nil => exact ht
  | char hq hc _ ih => exact .char hq hc ih
  | literal hb hw _ ih =>
      rw [List.cons_append, List.append_assoc, List.cons_append]
      exact .literal hb hw ih

theorem Marked.of_chars (h : ∀ c ∈ text, c ≠ '"' ∧ out c) : Marked out within text := by
  induction text with
  | nil => exact .nil
  | cons c text ih =>
      obtain ⟨⟨hq, hc⟩, htext⟩ := List.forall_mem_cons.mp h
      exact .char hq hc (ih htext)

theorem Marked.forall_mem {kept : Char → Prop} (h : Marked out within text) (hq : kept '"')
    (ho : ∀ c, out c → kept c) (hw : ∀ c, within c → kept c) : ∀ c ∈ text, kept c := by
  induction h with
  | nil => exact fun c hc => absurd hc List.not_mem_nil
  | char _ hc _ ih => exact List.forall_mem_cons.mpr ⟨ho _ hc, ih⟩
  | literal _ hb _ ih =>
      have hbody := fun c hc => hw c (hb c hc)
      have hrest := List.forall_mem_cons.mpr ⟨hq, ih⟩
      exact List.forall_mem_cons.mpr ⟨hq, List.forall_mem_append.mpr ⟨hbody, hrest⟩⟩

theorem inner_cons {c : Char} (h : c ≠ '"') (rest : List Char) :
    inner (c :: rest) = inner rest := by
  have hinner : Place.outside.isInner c = false := rfl
  rw [inner, select, hinner, Place.next_outside h]
  rfl

theorem outer_cons {c : Char} (h : c ≠ '"') (rest : List Char) :
    outer (c :: rest) = c :: outer rest := by
  have houter : Place.outside.isOuter c = true := by
    simp [Place.isOuter, Place.next_outside h]
  rw [outer, select, houter, Place.next_outside h]
  rfl

theorem inner_literal {body : List Char} (h : Quoted.Body body) (rest : List Char) :
    inner ('"' :: (body ++ '"' :: rest)) = body ++ inner rest := by
  change select Place.isInner .inside (body ++ '"' :: rest) = body ++ inner rest
  induction h with
  | nil => rfl
  | char hquote hback _ _ ih => simp [select, Place.isInner, Place.next, hquote, hback, ih]
  | escaped _ _ ih => simp [select, Place.isInner, Place.next, ih]

example : inner ['[', '"', '\\', '"', ' ', '"', ']'] = ['\\', '"', ' '] := by decide

theorem outer_literal {body : List Char} (h : Quoted.Body body) (rest : List Char) :
    outer ('"' :: (body ++ '"' :: rest)) = outer rest := by
  change select Place.isOuter .inside (body ++ '"' :: rest) = outer rest
  induction h with
  | nil => rfl
  | char hquote hback _ _ ih => simp [select, Place.isOuter, Place.next, hquote, hback, ih]
  | escaped _ _ ih => simp [select, Place.isOuter, Place.next, ih]

-- The scan over a text finds its literals.
theorem Marked.forall_mem_inner (h : Marked out within text) : ∀ c ∈ inner text, within c := by
  induction h with
  | nil => exact fun c hc => absurd hc List.not_mem_nil
  | char hq _ _ ih => rwa [inner_cons hq]
  | literal hb hw _ ih =>
      rw [inner_literal hb]
      exact List.forall_mem_append.mpr ⟨hw, ih⟩

theorem Marked.forall_mem_outer (h : Marked out within text) : ∀ c ∈ outer text, out c := by
  induction h with
  | nil => exact fun c hc => absurd hc List.not_mem_nil
  | char hq hc _ ih =>
      rw [outer_cons hq]
      exact List.forall_mem_cons.mpr ⟨hc, ih⟩
  | literal hb _ _ ih => rwa [outer_literal hb]

end

section Bare

-- No gap outside of literals, and no end of a line inside.
abbrev Unbroken (text : List Char) : Prop :=
  Marked (fun c => isGap c = false) (fun c => c ≠ '\n') text

theorem Name.unbroken {text : List Char} (h : Name text) : Unbroken text :=
  .of_chars fun c hc =>
    ⟨ne_of_isNameChar (h.2 c hc) (by decide), isGap_of_isNameChar (h.2 c hc)⟩

theorem unbroken_literal {text : List Char} (h : Quoted.Literal text) : Unbroken text := by
  obtain ⟨body, hb, rfl⟩ := h
  exact .literal hb hb.ne_line .nil

theorem Marked.ne_line {text : List Char} (h : Unbroken text) : ∀ c ∈ text, c ≠ '\n' := by
  refine h.forall_mem (by decide) ?_ fun _ hc => hc
  rintro c hc rfl
  exact absurd hc (by decide)

mutual

theorem unbroken_bare {o : Outline} (h : Proper o) : Unbroken (bare o) := by
  cases h with
  | word h => exact h.unbroken
  | literal h => exact unbroken_literal h
  | @wrapped label content hl hc =>
      have hopened : Unbroken (label.toList ++ '(' :: bare content) :=
        hl.unbroken.append (.char (by decide) rfl (unbroken_bare hc))
      exact hopened.append (.char (by decide) rfl .nil)
  | @list items h =>
      cases items with
      | nil => exact .char (by decide) rfl (.char (by decide) rfl .nil)
      | cons item items =>
          obtain ⟨hitem, hitems⟩ := List.forall_mem_cons.mp h
          have hall := (unbroken_bare hitem).append (unbroken_bareItems hitems)
          exact .append (.char (by decide) rfl hall) (.char (by decide) rfl .nil)
  | @record label fields hl hne hn hc =>
      cases fields with
      | nil => exact absurd rfl hne
      | cons field fields =>
          obtain ⟨hname, hnames⟩ := List.forall_mem_cons.mp hn
          obtain ⟨hcontent, hcontents⟩ := List.forall_mem_cons.mp hc
          have hopened : Unbroken (label.toList ++ '{' :: bareField field) :=
            hl.unbroken.append (.char (by decide) rfl (unbroken_bareField hname hcontent))
          exact (hopened.append (unbroken_bareFields hnames hcontents)).append
            (.char (by decide) rfl .nil)

theorem unbroken_bareItems {items : List Outline} (h : ∀ item ∈ items, Proper item) :
    Unbroken (bareItems items) := by
  cases items with
  | nil => exact .nil
  | cons item items =>
      obtain ⟨hitem, hitems⟩ := List.forall_mem_cons.mp h
      exact .char (by decide) rfl ((unbroken_bare hitem).append (unbroken_bareItems hitems))

theorem unbroken_bareField {field : String × Outline} (hn : Name field.1.toList)
    (hc : Proper field.2) : Unbroken (bareField field) := by
  obtain ⟨name, content⟩ := field
  exact hn.unbroken.append (.char (by decide) rfl (unbroken_bare hc))

theorem unbroken_bareFields {fields : List (String × Outline)}
    (hn : ∀ field ∈ fields, Name field.1.toList) (hc : ∀ field ∈ fields, Proper field.2) :
    Unbroken (bareFields fields) := by
  cases fields with
  | nil => exact .nil
  | cons field fields =>
      obtain ⟨hname, hnames⟩ := List.forall_mem_cons.mp hn
      obtain ⟨hcontent, hcontents⟩ := List.forall_mem_cons.mp hc
      exact .char (by decide) rfl
        ((unbroken_bareField hname hcontent).append (unbroken_bareFields hnames hcontents))

end

end Bare

end DocRun.Outline
