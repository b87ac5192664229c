import DocRun.Outline
import DocRun.Proofs.Text.Quoted

namespace DocRun.Outline

-- Labels, field names and words are made of these.
def isNameChar (c : Char) : Bool := c.isAlphanum || c = '_'

def Name (text : List Char) : Prop := text ≠ [] ∧ ∀ c ∈ text, isNameChar c = true

-- Every literal is one, and every name is one. A record has fields, or it would look like a word.
inductive Proper : Outline → Prop
  | word {text : String} (h : Name text.toList) : Proper (.word text)
  | literal {text : List Char} (h : Quoted.Literal text) : Proper (.literal text)
  | wrapped {label : String} {content : Outline} (hl : Name label.toList) (hc : Proper content) :
      Proper (.wrapped label content)
  | list {items : List Outline} (h : ∀ item ∈ items, Proper item) : Proper (.list items)
  | record {label : String} {fields : List (String × Outline)} (hl : Name label.toList)
      (hne : fields ≠ []) (hn : ∀ field ∈ fields, Name field.1.toList)
      (hc : ∀ field ∈ fields, Proper field.2) : Proper (.record label fields)

mutual

-- What is left of an outline without any layout.
def bare : Outline → List Char
  | word text => text.toList
  | literal text => text
  | wrapped label content => label.toList ++ '(' :: bare content ++ [')']
  | list [] => ['[', ']']
  | list (item :: items) => '[' :: bare item ++ bareItems items ++ [']']
  | record label [] => label.toList
  | record label (field :: fields) =>
    label.toList ++ '{' :: bareField field ++ bareFields fields ++ ['}']

def bareItems : List Outline → List Char
  | [] => []
  | item :: items => ',' :: bare item ++ bareItems items

def bareField : String × Outline → List Char
  | (name, content) => name.toList ++ ':' :: bare content

def bareFields : List (String × Outline) → List Char
  | [] => []
  | field :: fields => ',' :: bareField field ++ bareFields fields

end

-- Where a character of a shown value stands.
inductive Place where
  | outside
  | inside
  | escaped
  deriving DecidableEq

-- The place after a character. A quote ends a literal unless a backslash stands before it.
def Place.next : Place → Char → Place
  | outside, c => if c = '"' then inside else outside
  | inside, c => if c = '"' then outside else if c = '\\' then escaped else inside
  | escaped, _ => inside

def isGap (c : Char) : Bool := c = ' ' || c = '\n'

def isCloser (c : Char) : Bool := c = ')' || c = ']' || c = '}'

-- A character that means nothing to the layout.
def isPlain (c : Char) : Bool := !isGap c && c ≠ '"' && c ≠ ','

-- A text without the characters outside its literals that are to be dropped where they stand.
def sift (drop : Char → List Char → Bool) (place : Place) : List Char → List Char
  | [] => []
  | c :: rest =>
    if place = .outside ∧ drop c rest = true then sift drop place rest
    else c :: sift drop (place.next c) rest

def squeeze (text : List Char) : List Char := sift (fun c _ => isGap c) .outside text

-- A comma goes if it stands directly before a closing bracket.
def dropCommas (text : List Char) : List Char :=
  sift (fun c rest => c = ',' && rest.head?.any isCloser) .outside text

-- A text without its layout.
def clean (text : List Char) : List Char := dropCommas (squeeze text)

theorem ne_of_isNameChar {c d : Char} (hc : isNameChar c = true) (hd : isNameChar d = false) :
    c ≠ d := by
  rintro rfl
  exact Bool.false_ne_true (hd.symm.trans hc)

theorem isGap_of_isNameChar {c : Char} (h : isNameChar c = true) : isGap c = false := by
  have hspace := ne_of_isNameChar h (d := ' ') (by decide)
  have hline := ne_of_isNameChar h (d := '\n') (by decide)
  simp [isGap, hspace, hline]

theorem isCloser_of_isNameChar {c : Char} (h : isNameChar c = true) : isCloser c = false := by
  have hround := ne_of_isNameChar h (d := ')') (by decide)
  have hsquare := ne_of_isNameChar h (d := ']') (by decide)
  have hcurly := ne_of_isNameChar h (d := '}') (by decide)
  simp [isCloser, hround, hsquare, hcurly]

section

variable {drop : Char → List Char → Bool}

theorem sift_of_drop {c : Char} {rest : List Char} (h : drop c rest = true) :
    sift drop .outside (c :: rest) = sift drop .outside rest := by
  simp [sift, h]

theorem sift_of_keep {c : Char} {rest : List Char} (h : drop c rest = false) (hq : c ≠ '"') :
    sift drop .outside (c :: rest) = c :: sift drop .outside rest := by
  simp [sift, Place.next, h, hq]

theorem sift_name {text : List Char} (h : ∀ c ∈ text, isNameChar c = true)
    (hd : ∀ c rest, isNameChar c = true → drop c rest = false) (rest : List Char) :
    sift drop .outside (text ++ rest) = text ++ sift drop .outside rest := by
  induction text with
  | nil => rfl
  | cons c text ih =>
      have hc := h c List.mem_cons_self
      rw [List.cons_append, sift_of_keep (hd c _ hc) (ne_of_isNameChar hc (by decide)),
        ih fun d hm => h d (List.mem_cons_of_mem _ hm), List.cons_append]

-- Nothing is dropped between quotes.
theorem sift_body {body : List Char} (h : Quoted.Body body) (rest : List Char) :
    sift drop .inside (body ++ rest) = body ++ sift drop .inside rest := by
  induction h with
  | nil => rfl
  | char hquote hback _ _ ih => simp [sift, Place.next, hquote, hback, ih]
  | escaped _ _ ih => simp [sift, Place.next, ih]

theorem sift_literal {text : List Char} (h : Quoted.Literal text)
    (hd : ∀ rest, drop '"' rest = false) (rest : List Char) :
    sift drop .outside (text ++ rest) = text ++ sift drop .outside rest := by
  obtain ⟨body, hb, rfl⟩ := h
  have hopen : sift drop .outside ('"' :: (body ++ '"' :: rest)) =
      '"' :: sift drop .inside (body ++ '"' :: rest) := by
    simp [sift, Place.next, hd]
  have hclose : sift drop .inside ('"' :: rest) = '"' :: sift drop .outside rest := by
    simp [sift, Place.next]
  simp only [List.cons_append, List.append_assoc, List.nil_append]
  rw [hopen, sift_body hb, hclose]

end

theorem squeeze_gap {c : Char} (hg : isGap c = true) (rest : List Char) :
    squeeze (c :: rest) = squeeze rest :=
  sift_of_drop hg

theorem squeeze_cons {c : Char} (h : isPlain c = true) (rest : List Char) :
    squeeze (c :: rest) = c :: squeeze rest := by
  simp only [isPlain, Bool.and_eq_true, Bool.not_eq_true', decide_eq_true_eq] at h
  exact sift_of_keep h.1.1 h.1.2

theorem squeeze_comma (rest : List Char) : squeeze (',' :: rest) = ',' :: squeeze rest :=
  sift_of_keep rfl (by decide)

theorem squeeze_name {text : List Char} (h : Name text) (rest : List Char) :
    squeeze (text ++ rest) = text ++ squeeze rest :=
  sift_name h.2 (fun _ _ hc => isGap_of_isNameChar hc) rest

theorem squeeze_literal {text : List Char} (h : Quoted.Literal text) (rest : List Char) :
    squeeze (text ++ rest) = text ++ squeeze rest :=
  sift_literal h (fun _ => rfl) rest

theorem squeeze_spaces (count : Nat) (rest : List Char) :
    squeeze (List.replicate count ' ' ++ rest) = squeeze rest := by
  induction count with
  | zero => rfl
  | succ count ih => rw [List.replicate_succ, List.cons_append, squeeze_gap rfl, ih]

theorem squeeze_newLine (depth : Nat) (rest : List Char) :
    squeeze (newLine depth ++ rest) = squeeze rest := by
  rw [newLine, List.cons_append, squeeze_gap rfl, squeeze_spaces]

mutual

-- On one line the gaps are all the layout there is.
theorem squeeze_inline {o : Outline} (h : Proper o) (rest : List Char) :
    squeeze (inline o ++ rest) = bare o ++ squeeze rest := by
  cases h with
  | word h => exact squeeze_name h rest
  | literal h => exact squeeze_literal h rest
  | wrapped hl hc =>
      simp only [inline, bare, List.append_assoc, List.cons_append, List.nil_append]
      rw [squeeze_name hl, squeeze_cons rfl, squeeze_inline hc, squeeze_cons rfl]
  | @list items h =>
      cases items with
      | nil =>
          simp only [inline, bare, List.cons_append, List.nil_append]
          rw [squeeze_cons rfl, squeeze_cons rfl]
      | cons item items =>
          obtain ⟨hitem, hitems⟩ := List.forall_mem_cons.mp h
          simp only [inline, bare, List.append_assoc, List.cons_append, List.nil_append]
          rw [squeeze_cons rfl, squeeze_inline hitem, squeeze_inlineItems hitems, squeeze_cons rfl]
  | @record label fields hl hne hn hc =>
      cases fields with
      | nil => exact absurd rfl hne
      | cons field fields =>
          obtain ⟨hname, hnames⟩ := List.forall_mem_cons.mp hn
          obtain ⟨hcontent, hcontents⟩ := List.forall_mem_cons.mp hc
          simp only [inline, bare, List.append_assoc, List.cons_append, List.nil_append]
          rw [squeeze_name hl, squeeze_gap rfl, squeeze_cons rfl, squeeze_gap rfl,
            squeeze_inlineField hname hcontent, squeeze_inlineFields hnames hcontents,
            squeeze_gap rfl, squeeze_cons rfl]

theorem squeeze_inlineItems {items : List Outline} (h : ∀ item ∈ items, Proper item)
    (rest : List Char) :
    squeeze (inlineItems items ++ rest) = bareItems items ++ squeeze rest := by
  cases items with
  | nil => rfl
  | cons item items =>
      obtain ⟨hitem, hitems⟩ := List.forall_mem_cons.mp h
      simp only [inlineItems, bareItems, List.append_assoc, List.cons_append]
      rw [squeeze_comma, squeeze_gap rfl, squeeze_inline hitem, squeeze_inlineItems hitems]

theorem squeeze_inlineField {field : String × Outline} (hn : Name field.1.toList)
    (hc : Proper field.2) (rest : List Char) :
    squeeze (inlineField field ++ rest) = bareField field ++ squeeze rest := by
  obtain ⟨name, content⟩ := field
  simp only [inlineField, bareField, List.append_assoc, List.cons_append]
  rw [squeeze_name hn, squeeze_cons rfl, squeeze_gap rfl, squeeze_inline hc]

theorem squeeze_inlineFields {fields : List (String × Outline)}
    (hn : ∀ field ∈ fields, Name field.1.toList) (hc : ∀ field ∈ fields, Proper field.2)
    (rest : List Char) :
    squeeze (inlineFields fields ++ rest) = bareFields fields ++ squeeze rest := by
  cases fields with
  | nil => rfl
  | cons field fields =>
      obtain ⟨hname, hnames⟩ := List.forall_mem_cons.mp hn
      obtain ⟨hcontent, hcontents⟩ := List.forall_mem_cons.mp hc
      simp only [inlineFields, bareFields, List.append_assoc, List.cons_append]
      rw [squeeze_comma, squeeze_gap rfl, squeeze_inlineField hname hcontent,
        squeeze_inlineFields hnames hcontents]

end

theorem clean_cons {c : Char} (h : isPlain c = true) (rest : List Char) :
    clean (c :: rest) = c :: clean rest := by
  have hp := h
  simp only [isPlain, Bool.and_eq_true, Bool.not_eq_true', decide_eq_true_eq] at hp
  rw [clean, squeeze_cons h, dropCommas, sift_of_keep (by simp [hp.2]) hp.1.2]
  rfl

theorem clean_gap {c : Char} (hg : isGap c = true) (rest : List Char) :
    clean (c :: rest) = clean rest := by
  rw [clean, squeeze_gap hg, clean]

theorem clean_name {text : List Char} (h : Name text) (rest : List Char) :
    clean (text ++ rest) = text ++ clean rest := by
  rw [clean, squeeze_name h, dropCommas, sift_name h.2]
  · rfl
  · intro c rest hc
    simp [ne_of_isNameChar hc (d := ',') (by decide)]

theorem clean_literal {text : List Char} (h : Quoted.Literal text) (rest : List Char) :
    clean (text ++ rest) = text ++ clean rest := by
  rw [clean, squeeze_literal h, dropCommas, sift_literal h fun _ => rfl]
  rfl

theorem clean_newLine (depth : Nat) (rest : List Char) :
    clean (newLine depth ++ rest) = clean rest := by
  rw [clean, squeeze_newLine, clean]

theorem squeeze_closer {c : Char} (h : isCloser c = true) (rest : List Char) :
    squeeze (c :: rest) = c :: squeeze rest := by
  simp only [isCloser, Bool.or_eq_true, decide_eq_true_eq] at h
  obtain (rfl | rfl) | rfl := h
  · exact squeeze_cons rfl rest
  · exact squeeze_cons rfl rest
  · exact squeeze_cons rfl rest

-- A comma at the end of a line goes if the next line closes a bracket.
theorem clean_comma_of_closer {c : Char} (h : isCloser c = true) (depth : Nat)
    (rest : List Char) :
    clean (',' :: (newLine depth ++ c :: rest)) = clean (c :: rest) := by
  rw [clean, squeeze_comma, squeeze_newLine, clean, squeeze_closer h]
  exact sift_of_drop (by simp [h])

-- It stays if the next line starts with a name or with a bracket or quote that opens.
theorem clean_comma_of_opener {c : Char} (hc : isCloser c = false) (hg : isGap c = false)
    (depth : Nat) (rest : List Char) :
    clean (',' :: (newLine depth ++ c :: rest)) = ',' :: clean (c :: rest) := by
  have hhead : (squeeze (c :: rest)).head? = some c := by
    by_cases hq : c = '"'
    · subst hq
      rfl
    · rw [squeeze, sift_of_keep hg hq]
      rfl
  rw [clean, squeeze_comma, squeeze_newLine, clean, dropCommas,
    sift_of_keep (by simp [hhead, hc]) (by decide)]
  rfl

theorem Name.exists_cons {text : List Char} (h : Name text) :
    ∃ c rest, text = c :: rest ∧ isCloser c = false ∧ isGap c = false := by
  obtain ⟨hne, hc⟩ := h
  obtain ⟨c, rest, rfl⟩ := List.exists_cons_of_ne_nil hne
  have hname := hc c List.mem_cons_self
  exact ⟨c, rest, rfl, isCloser_of_isNameChar hname, isGap_of_isNameChar hname⟩

theorem exists_cons_stacked {o : Outline} (h : Proper o) (depth : Nat) :
    ∃ c rest, stacked depth o = c :: rest ∧ isCloser c = false ∧ isGap c = false := by
  cases h with
  | word h => exact h.exists_cons
  | literal h =>
      obtain ⟨body, _, rfl⟩ := h
      exact ⟨'"', _, rfl, by decide, by decide⟩
  | wrapped hl _ =>
      obtain ⟨c, rest, he, hc, hg⟩ := hl.exists_cons
      rw [stacked, he]
      exact ⟨c, _, rfl, hc, hg⟩
  | @list items _ => cases items <;> exact ⟨'[', _, rfl, by decide, by decide⟩
  | @record label fields hl _ _ _ =>
      obtain ⟨c, rest, he, hc, hg⟩ := hl.exists_cons
      cases fields with
      | nil => exact ⟨c, rest, he, hc, hg⟩
      | cons field fields =>
          rw [stacked, he]
          exact ⟨c, _, rfl, hc, hg⟩

mutual

theorem clean_stacked {o : Outline} (h : Proper o) (depth : Nat) (rest : List Char) :
    clean (stacked depth o ++ rest) = bare o ++ clean rest := by
  cases h with
  | word h => exact clean_name h rest
  | literal h => exact clean_literal h rest
  | wrapped hl hc =>
      simp only [stacked, bare, List.append_assoc, List.cons_append, List.nil_append]
      rw [clean_name hl, clean_cons rfl, clean_newLine,
        clean_stacked hc, clean_comma_of_closer rfl,
        clean_cons rfl]
  | @list items h =>
      cases items with
      | nil =>
          simp only [stacked, bare, List.cons_append, List.nil_append]
          rw [clean_cons rfl,
            clean_cons rfl]
      | cons item items =>
          obtain ⟨hitem, hitems⟩ := List.forall_mem_cons.mp h
          simp only [stacked, stackedItems, bare, List.append_assoc, List.cons_append,
            List.nil_append]
          rw [clean_cons rfl, clean_newLine, clean_stacked hitem, clean_stackedItems hitems rfl,
            clean_cons rfl]
  | @record label fields hl hne hn hc =>
      cases fields with
      | nil => exact absurd rfl hne
      | cons field fields =>
          obtain ⟨name, content⟩ := field
          obtain ⟨hname, hnames⟩ := List.forall_mem_cons.mp hn
          obtain ⟨hcontent, hcontents⟩ := List.forall_mem_cons.mp hc
          simp only [stacked, stackedFields, bare, bareField, List.append_assoc, List.cons_append,
            List.nil_append]
          rw [clean_name hl, clean_gap rfl, clean_cons rfl, clean_newLine, clean_name hname,
            clean_cons rfl, clean_gap rfl, clean_stacked hcontent,
            clean_stackedFields hnames hcontents rfl, clean_cons rfl]

-- The comma of the item before is part of the text here, since what becomes of it depends on
-- what comes next.
theorem clean_stackedItems {items : List Outline} (h : ∀ item ∈ items, Proper item) {c : Char}
    (hc : isCloser c = true) (depth last : Nat) (rest : List Char) :
    clean (',' :: (stackedItems depth items ++ (newLine last ++ c :: rest))) =
      bareItems items ++ clean (c :: rest) := by
  cases items with
  | nil => exact clean_comma_of_closer hc last rest
  | cons item items =>
      obtain ⟨hitem, hitems⟩ := List.forall_mem_cons.mp h
      have hclean := clean_stacked hitem depth
        (',' :: (stackedItems depth items ++ (newLine last ++ c :: rest)))
      obtain ⟨d, tail, he, hd, hg⟩ := exists_cons_stacked hitem depth
      rw [clean_stackedItems hitems hc, he, List.cons_append] at hclean
      simp only [stackedItems, bareItems, he, List.append_assoc, List.cons_append]
      rw [clean_comma_of_opener hd hg, hclean]

theorem clean_stackedFields {fields : List (String × Outline)}
    (hn : ∀ field ∈ fields, Name field.1.toList) (hp : ∀ field ∈ fields, Proper field.2)
    {c : Char} (hc : isCloser c = true) (depth last : Nat) (rest : List Char) :
    clean (',' :: (stackedFields depth fields ++ (newLine last ++ c :: rest))) =
      bareFields fields ++ clean (c :: rest) := by
  cases fields with
  | nil => exact clean_comma_of_closer hc last rest
  | cons field fields =>
      obtain ⟨name, content⟩ := field
      obtain ⟨hname, hnames⟩ := List.forall_mem_cons.mp hn
      obtain ⟨hcontent, hcontents⟩ := List.forall_mem_cons.mp hp
      have hclean := clean_name hname (':' :: ' ' :: (stacked depth content ++
        ',' :: (stackedFields depth fields ++ (newLine last ++ c :: rest))))
      rw [clean_cons rfl, clean_gap rfl, clean_stacked hcontent,
        clean_stackedFields hnames hcontents hc] at hclean
      obtain ⟨d, tail, he, hd, hg⟩ := hname.exists_cons
      rw [he, List.cons_append] at hclean
      simp only [stackedFields, bareFields, bareField, he, List.append_assoc, List.cons_append]
      rw [clean_comma_of_opener hd hg, hclean, List.cons_append]

end

-- Both forms come from the same text, which they only lay out.
theorem squeeze_inline_eq {o : Outline} (h : Proper o) : squeeze (inline o) = bare o := by
  have ho := squeeze_inline h []
  rwa [List.append_nil, show squeeze [] = [] from rfl, List.append_nil] at ho

theorem clean_stacked_eq {o : Outline} (h : Proper o) (depth : Nat) :
    clean (stacked depth o) = bare o := by
  have ho := clean_stacked h depth []
  rwa [List.append_nil, show clean [] = [] from rfl, List.append_nil] at ho

end DocRun.Outline
