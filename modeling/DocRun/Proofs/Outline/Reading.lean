import DocRun.Proofs.Outline.Layout

namespace DocRun.Outline

-- What comes after a value inside another one, or nothing at all.
def Stop (text : List Char) : Prop := ∀ c, text.head? = some c → c = ',' ∨ isCloser c = true

-- The bare form is a label, which may be empty, and what comes after it.
def label : Outline → List Char
  | word text => text.toList
  | literal _ => []
  | wrapped label _ => label.toList
  | list _ => []
  | record label _ => label.toList

def content : Outline → List Char
  | word _ => []
  | literal text => text
  | wrapped _ content => '(' :: bare content ++ [')']
  | list [] => ['[', ']']
  | list (item :: items) => '[' :: bare item ++ bareItems items ++ [']']
  | record _ [] => []
  | record _ (field :: fields) => '{' :: bareField field ++ bareFields fields ++ ['}']

theorem label_append_content (o : Outline) : label o ++ content o = bare o := by
  cases o with
  | word text => exact List.append_nil _
  | literal text => rfl
  | wrapped name inner => simp only [label, content, bare, List.append_assoc, List.cons_append]
  | list items => cases items <;> rfl
  | record name fields =>
      cases fields with
      | nil => exact List.append_nil _
      | cons field fields =>
          simp only [label, content, bare, List.append_assoc, List.cons_append]

def isOpener (c : Char) : Bool := c = '"' || c = '(' || c = '[' || c = '{'

-- The kind of an outline shows after its label.
def opener : Outline → Option Char
  | word _ => none
  | literal _ => some '"'
  | wrapped _ _ => some '('
  | list _ => some '['
  | record _ _ => some '{'

theorem Stop.of_comma (rest : List Char) : Stop (',' :: rest) := fun _ hc =>
  .inl (Option.some.inj hc).symm

theorem Stop.of_closer {c : Char} (h : isCloser c = true) (rest : List Char) :
    Stop (c :: rest) := fun _ hc => .inr (Option.some.inj hc ▸ h)

theorem Stop.nil : Stop [] := fun _ hc => nomatch hc

theorem Stop.items (items : List Outline) {c : Char} (h : isCloser c = true) (rest : List Char) :
    Stop (bareItems items ++ c :: rest) := by
  cases items with
  | nil => exact .of_closer h rest
  | cons item items => exact .of_comma _

theorem Stop.fields (fields : List (String × Outline)) {c : Char} (h : isCloser c = true)
    (rest : List Char) : Stop (bareFields fields ++ c :: rest) := by
  cases fields with
  | nil => exact .of_closer h rest
  | cons field fields => exact .of_comma _

theorem Stop.not_isNameChar {text : List Char} (h : Stop text) {c : Char}
    (hc : text.head? = some c) : isNameChar c = false := by
  have hs := h c hc
  simp only [isCloser, Bool.or_eq_true, decide_eq_true_eq] at hs
  obtain rfl | (rfl | rfl) | rfl := hs <;> rfl

theorem Stop.not_isOpener {text : List Char} (h : Stop text) :
    text.head?.filter isOpener = none := by
  cases text with
  | nil => rfl
  | cons c rest =>
      have hc := h c rfl
      simp only [isCloser, Bool.or_eq_true, decide_eq_true_eq] at hc
      obtain rfl | (rfl | rfl) | rfl := hc <;> rfl

theorem filter_head_content {o : Outline} (h : Proper o) {rest : List Char} (hr : Stop rest) :
    (content o ++ rest).head?.filter isOpener = opener o := by
  cases h with
  | word _ => exact hr.not_isOpener
  | literal h =>
      obtain ⟨body, _, rfl⟩ := h
      rfl
  | wrapped _ _ => rfl
  | @list items _ => cases items <;> rfl
  | @record _ fields _ hne _ _ =>
      cases fields with
      | nil => exact absurd rfl hne
      | cons field fields => rfl

-- A label goes as far as its characters do.
theorem head_content {o : Outline} (h : Proper o) {rest : List Char} (hr : Stop rest) (c : Char)
    (hc : (content o ++ rest).head? = some c) : isNameChar c = false := by
  cases h with
  | word _ => exact hr.not_isNameChar hc
  | literal h =>
      obtain ⟨body, _, rfl⟩ := h
      obtain rfl := Option.some.inj hc
      rfl
  | wrapped _ _ =>
      obtain rfl := Option.some.inj hc
      rfl
  | @list items _ =>
      cases items <;> obtain rfl := Option.some.inj hc <;> rfl
  | @record _ fields _ hne _ _ =>
      cases fields with
      | nil => exact absurd rfl hne
      | cons field fields =>
          obtain rfl := Option.some.inj hc
          rfl

theorem split_names {s t rest other : List Char} (hs : ∀ c ∈ s, isNameChar c = true)
    (ht : ∀ c ∈ t, isNameChar c = true)
    (hr : ∀ c, rest.head? = some c → isNameChar c = false)
    (ho : ∀ c, other.head? = some c → isNameChar c = false) (h : s ++ rest = t ++ other) :
    s = t ∧ rest = other := by
  induction s generalizing t with
  | nil =>
      cases t with
      | nil => exact ⟨rfl, h⟩
      | cons d t =>
          rw [List.nil_append] at h
          have hd := hr d (by rw [h]; rfl)
          exact absurd (hd.symm.trans (ht d List.mem_cons_self)) Bool.false_ne_true
  | cons c s ih =>
      cases t with
      | nil =>
          rw [List.nil_append] at h
          have hc := ho c (by rw [← h]; rfl)
          exact absurd (hc.symm.trans (hs c List.mem_cons_self)) Bool.false_ne_true
      | cons d t =>
          obtain ⟨rfl, htail⟩ := List.cons.inj h
          obtain ⟨rfl, hrest⟩ := ih (List.forall_mem_cons.mp hs).2 (List.forall_mem_cons.mp ht).2
            htail
          exact ⟨rfl, hrest⟩

theorem isNameChar_of_mem_label {o : Outline} (h : Proper o) :
    ∀ c ∈ label o, isNameChar c = true := by
  cases h with
  | word h => exact h.2
  | literal _ => exact fun _ hc => absurd hc List.not_mem_nil
  | wrapped hl _ => exact hl.2
  | list _ => exact fun _ hc => absurd hc List.not_mem_nil
  | record hl _ _ _ => exact hl.2

-- Two values that look alike have the same label and are of the same kind.
theorem split_label {o p : Outline} (ho : Proper o) (hp : Proper p) {rest other : List Char}
    (hr : Stop rest) (hs : Stop other) (h : bare o ++ rest = bare p ++ other) :
    label o = label p ∧ opener o = opener p ∧ content o ++ rest = content p ++ other := by
  rw [← label_append_content, ← label_append_content, List.append_assoc, List.append_assoc] at h
  obtain ⟨hlabel, hcontent⟩ := split_names (isNameChar_of_mem_label ho)
    (isNameChar_of_mem_label hp) (head_content ho hr) (head_content hp hs) h
  refine ⟨hlabel, ?_, hcontent⟩
  rw [← filter_head_content ho hr, hcontent, filter_head_content hp hs]

theorem exists_cons_bare {o : Outline} (h : Proper o) :
    ∃ c rest, bare o = c :: rest ∧ isCloser c = false := by
  cases h with
  | word h =>
      obtain ⟨c, rest, he, hc, _⟩ := h.exists_cons
      exact ⟨c, rest, he, hc⟩
  | literal h =>
      obtain ⟨body, _, rfl⟩ := h
      exact ⟨'"', _, rfl, by decide⟩
  | wrapped hl _ =>
      obtain ⟨c, rest, he, hc, _⟩ := hl.exists_cons
      rw [bare, he]
      exact ⟨c, _, rfl, hc⟩
  | @list items _ => cases items <;> exact ⟨'[', _, rfl, by decide⟩
  | @record _ fields hl hne _ _ =>
      cases fields with
      | nil => exact absurd rfl hne
      | cons field fields =>
          obtain ⟨c, rest, he, hc, _⟩ := hl.exists_cons
          rw [bare, he]
          exact ⟨c, _, rfl, hc⟩

-- A list that starts with a value does not end at once.
theorem bare_ne_closer {o : Outline} (h : Proper o) {c : Char} (hc : isCloser c = true)
    (rest other : List Char) : bare o ++ rest ≠ c :: other := by
  obtain ⟨d, tail, he, hd⟩ := exists_cons_bare h
  intro hb
  rw [he, List.cons_append] at hb
  rw [(List.cons.inj hb).1, hc] at hd
  exact Bool.false_ne_true hd.symm

theorem ne_comma_of_isCloser {c : Char} (h : isCloser c = true) : c ≠ ',' := by
  rintro rfl
  exact absurd h (by decide)

mutual

-- A value that is followed by a comma, a closing bracket or nothing can be read in one way only.
theorem split_bare {o p : Outline} (ho : Proper o) (hp : Proper p) {rest other : List Char}
    (hr : Stop rest) (hs : Stop other) (h : bare o ++ rest = bare p ++ other) :
    o = p ∧ rest = other := by
  obtain ⟨hlabel, hopener, hcontent⟩ := split_label ho hp hr hs h
  cases ho with
  | word _ =>
      cases hp with
      | word _ => exact ⟨congrArg _ (String.toList_inj.mp hlabel), hcontent⟩
      | _ => exact nomatch hopener
  | literal hl =>
      cases hp with
      | literal hm =>
          obtain ⟨rfl, hrest⟩ := hl.split hm hcontent
          exact ⟨rfl, hrest⟩
      | _ => exact nomatch hopener
  | wrapped _ hc =>
      cases hp with
      | wrapped _ hd =>
          simp only [content, List.cons_append, List.append_assoc, List.nil_append] at hcontent
          obtain ⟨rfl, hclose⟩ := split_bare hc hd (.of_closer rfl _)
            (.of_closer rfl _) (List.cons.inj hcontent).2
          exact ⟨congrArg (wrapped · _) (String.toList_inj.mp hlabel), (List.cons.inj hclose).2⟩
      | _ => exact nomatch hopener
  | @list items hitems =>
      cases hp with
      | @list others hothers =>
          cases items with
          | nil =>
              cases others with
              | nil => exact ⟨rfl, (List.cons.inj (List.cons.inj hcontent).2).2⟩
              | cons other others =>
                  simp only [content, List.cons_append, List.append_assoc] at hcontent
                  exact absurd (List.cons.inj hcontent).2.symm
                    (bare_ne_closer (hothers other List.mem_cons_self) rfl _ _)
          | cons item items =>
              cases others with
              | nil =>
                  simp only [content, List.cons_append, List.append_assoc] at hcontent
                  exact absurd (List.cons.inj hcontent).2
                    (bare_ne_closer (hitems item List.mem_cons_self) rfl _ _)
              | cons other others =>
                  simp only [content, List.cons_append, List.append_assoc,
                    List.nil_append] at hcontent
                  -- with a comma in front both lists have the form of items after the first
                  have hcomma := congrArg (',' :: ·) (List.cons.inj hcontent).2
                  simp only [← List.append_assoc, ← List.cons_append] at hcomma
                  obtain ⟨hlist, hrest⟩ := split_bareItems hitems hothers rfl hcomma
                  exact ⟨congrArg list hlist, hrest⟩
      | _ => exact nomatch hopener
  | @record _ fields _ hne hn hc =>
      cases hp with
      | @record _ others _ hme hm hd =>
          cases fields with
          | nil => exact absurd rfl hne
          | cons field fields =>
              cases others with
              | nil => exact absurd rfl hme
              | cons other others =>
                  simp only [content, List.cons_append, List.append_assoc,
                    List.nil_append] at hcontent
                  have hcomma := congrArg (',' :: ·) (List.cons.inj hcontent).2
                  simp only [← List.append_assoc, ← List.cons_append] at hcomma
                  obtain ⟨hfields, hrest⟩ := split_bareFields hn hm hc hd rfl hcomma
                  rw [String.toList_inj.mp hlabel, hfields]
                  exact ⟨rfl, hrest⟩
      | _ => exact nomatch hopener
termination_by structural o

theorem split_bareItems {items others : List Outline} (hi : ∀ item ∈ items, Proper item)
    (ho : ∀ item ∈ others, Proper item) {c : Char} (hc : isCloser c = true)
    {rest other : List Char} (h : bareItems items ++ c :: rest = bareItems others ++ c :: other) :
    items = others ∧ rest = other := by
  have hcomma := ne_comma_of_isCloser hc
  cases items with
  | nil =>
      cases others with
      | nil => exact ⟨rfl, (List.cons.inj h).2⟩
      | cons o others => exact absurd (List.cons.inj h).1 hcomma
  | cons i items =>
      cases others with
      | nil => exact absurd (List.cons.inj h).1.symm hcomma
      | cons o others =>
          simp only [bareItems, List.cons_append, List.append_assoc] at h
          obtain ⟨hitem, hitems⟩ := List.forall_mem_cons.mp hi
          obtain ⟨hother, hothers⟩ := List.forall_mem_cons.mp ho
          obtain ⟨rfl, htail⟩ := split_bare hitem hother (.items items hc rest)
            (.items others hc other) (List.cons.inj h).2
          obtain ⟨rfl, hrest⟩ := split_bareItems hitems hothers hc htail
          exact ⟨rfl, hrest⟩
termination_by structural items

theorem split_bareField {field other : String × Outline} (hn : Name field.1.toList)
    (hm : Name other.1.toList) (hc : Proper field.2) (hd : Proper other.2)
    {rest more : List Char} (hr : Stop rest) (hs : Stop more)
    (h : bareField field ++ rest = bareField other ++ more) : field = other ∧ rest = more := by
  obtain ⟨name, content⟩ := field
  obtain ⟨label, inner⟩ := other
  simp only [bareField, List.append_assoc, List.cons_append] at h
  have hcolon : ∀ (text : List Char) (c : Char), (':' :: text).head? = some c →
      isNameChar c = false := by
    intro text c he
    obtain rfl := Option.some.inj he
    rfl
  obtain ⟨hname, htail⟩ := split_names hn.2 hm.2 (hcolon _) (hcolon _) h
  obtain ⟨rfl, hrest⟩ := split_bare hc hd hr hs (List.cons.inj htail).2
  exact ⟨congrArg (·, content) (String.toList_inj.mp hname), hrest⟩
termination_by structural field

theorem split_bareFields {fields others : List (String × Outline)}
    (hn : ∀ field ∈ fields, Name field.1.toList) (hm : ∀ field ∈ others, Name field.1.toList)
    (hc : ∀ field ∈ fields, Proper field.2) (hd : ∀ field ∈ others, Proper field.2)
    {c : Char} (hcl : isCloser c = true) {rest other : List Char}
    (h : bareFields fields ++ c :: rest = bareFields others ++ c :: other) :
    fields = others ∧ rest = other := by
  have hcomma := ne_comma_of_isCloser hcl
  cases fields with
  | nil =>
      cases others with
      | nil => exact ⟨rfl, (List.cons.inj h).2⟩
      | cons g others => exact absurd (List.cons.inj h).1 hcomma
  | cons f fields =>
      cases others with
      | nil => exact absurd (List.cons.inj h).1.symm hcomma
      | cons g others =>
          simp only [bareFields, List.cons_append, List.append_assoc] at h
          obtain ⟨hname, hnames⟩ := List.forall_mem_cons.mp hn
          obtain ⟨hlabel, hlabels⟩ := List.forall_mem_cons.mp hm
          obtain ⟨hcontent, hcontents⟩ := List.forall_mem_cons.mp hc
          obtain ⟨hinner, hinners⟩ := List.forall_mem_cons.mp hd
          obtain ⟨rfl, htail⟩ := split_bareField hname hlabel hcontent hinner
            (.fields fields hcl rest) (.fields others hcl other) (List.cons.inj h).2
          obtain ⟨rfl, hrest⟩ := split_bareFields hnames hlabels hcontents hinners hcl htail
          exact ⟨rfl, hrest⟩
termination_by structural fields

end

theorem bare_injective {o p : Outline} (ho : Proper o) (hp : Proper p) (h : bare o = bare p) :
    o = p :=
  (split_bare ho hp .nil .nil (congrArg (· ++ []) h)).1

-- Neither form loses anything of an outline.
theorem inline_injective {o p : Outline} (ho : Proper o) (hp : Proper p)
    (h : inline o = inline p) : o = p := by
  have hb := congrArg squeeze h
  rw [squeeze_inline_eq ho, squeeze_inline_eq hp] at hb
  exact bare_injective ho hp hb

theorem stacked_injective {o p : Outline} (ho : Proper o) (hp : Proper p) {depth : Nat}
    (h : stacked depth o = stacked depth p) : o = p := by
  have hb := congrArg clean h
  rw [clean_stacked_eq ho, clean_stacked_eq hp] at hb
  exact bare_injective ho hp hb

end DocRun.Outline
