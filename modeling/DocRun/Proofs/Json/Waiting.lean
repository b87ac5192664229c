import DocRun.Proofs.Json.Spelling

namespace DocRun.Json

-- A reader takes exactly this text off the front, whatever comes after it, and keeps waiting for
-- more where only a part of the text is there.
structure Takes {ε β : Type} (waiting : ε) (read : List Char → Except ε β) (text : List Char)
    (result : List Char → β) : Prop where
  whole : ∀ rest, read (text ++ rest) = .ok (result rest)
  part : ∀ part, part <+: text → part ≠ text → read part = .error waiting

-- A cut falls before the end of the first text, or somewhere in the second.
theorem prefix_append_cases {part s t : List Char} (h : part <+: s ++ t) :
    part <+: s ∧ part ≠ s ∨ ∃ more, more <+: t ∧ part = s ++ more := by
  rcases List.prefix_or_prefix_of_prefix h (List.prefix_append s t) with hs | ⟨more, rfl⟩
  · by_cases he : part = s
    · exact .inr ⟨[], List.nil_prefix, by rw [he, List.append_nil]⟩
    · exact .inl ⟨hs, he⟩
  · exact .inr ⟨more, (List.prefix_append_right_inj s).mp h, rfl⟩

section

variable {ε β γ : Type} {waiting : ε} {read : List Char → Except ε β} {s t : List Char}
  {result : List Char → β}

theorem Takes.nil (h : ∀ rest, read rest = .ok (result rest)) : Takes waiting read [] result where
  whole := h
  part := fun _ hp hne => absurd (List.prefix_nil.mp hp) hne

theorem Takes.cons {c : Char} (hnil : read [] = .error waiting)
    (h : Takes waiting (fun text => read (c :: text)) s result) :
    Takes waiting read (c :: s) result where
  whole := h.whole
  part := by
    intro part hp hne
    obtain rfl | ⟨more, rfl, hm⟩ := List.prefix_cons_iff.mp hp
    · exact hnil
    · exact h.part more hm fun he => hne (he ▸ rfl)

theorem Takes.map (f : β → γ) (h : Takes waiting read s result) :
    Takes waiting (fun text => read text >>= fun found => .ok (f found)) s
      fun rest => f (result rest) where
  whole := fun rest => bind_eq_ok_iff.mpr ⟨_, h.whole rest, rfl⟩
  part := by
    intro part hp hne
    simp only [h.part part hp hne, bind, Except.bind]

-- One reader after another waits in both texts.
theorem Takes.bind {next : β → Except ε γ} {last : List Char → γ}
    (hs : Takes waiting read s result)
    (ht : Takes waiting (fun text => next (result text)) t last) :
    Takes waiting (fun text => read text >>= next) (s ++ t) last where
  whole := by
    intro rest
    rw [List.append_assoc]
    exact bind_eq_ok_iff.mpr ⟨_, hs.whole _, ht.whole rest⟩
  part := by
    intro part hp hne
    obtain ⟨hp, hne⟩ | ⟨more, hm, rfl⟩ := prefix_append_cases hp
    · simp only [hs.part part hp hne, Bind.bind, Except.bind]
    · have hmore := ht.part more hm fun he => hne (he ▸ rfl)
      simp only [hs.whole more, Bind.bind, Except.bind]
      exact hmore

-- Where a reader skips space, nothing but space leaves it waiting.
theorem Takes.after_space {space : List Char} (hb : Blank space) (hne : s ≠ [])
    (hskip : ∀ text, read (skipSpace text) = read text) (h : Takes waiting read s result) :
    Takes waiting read (space ++ s) result where
  whole := by
    intro rest
    rw [List.append_assoc, ← hskip, skipSpace_append hb, hskip]
    exact h.whole rest
  part := by
    intro part hp hpart
    obtain ⟨hp, -⟩ | ⟨more, hm, rfl⟩ := prefix_append_cases hp
    · have hblank : Blank part := fun c hc => hb c (hp.subset hc)
      rw [← hskip, skipSpace_eq_nil_iff.mpr hblank]
      exact h.part [] List.nil_prefix hne.symm
    · rw [← hskip, skipSpace_append hb, hskip]
      exact h.part more hm fun he => hpart (he ▸ rfl)

end

theorem skipSpace_skipSpace (text : List Char) :
    skipSpace (skipSpace text) = skipSpace text := by
  induction text with
  | nil => rfl
  | cons c text ih =>
      cases hc : isSpace c with
      | true =>
          have hskip : skipSpace (c :: text) = skipSpace text := List.dropWhile_cons_of_pos hc
          rw [hskip, ih]
      | false => rw [skipSpace_cons hc, skipSpace_cons hc]

theorem takes_letters (letters : List Char) :
    Takes Fault.endOfText (readLetters letters) letters fun rest => rest where
  whole := fun _ => readLetters_eq_ok_iff.mpr rfl
  part := by
    intro part hp hne
    induction letters generalizing part with
    | nil => exact absurd (List.prefix_nil.mp hp) hne
    | cons letter letters ih =>
        obtain rfl | ⟨more, rfl, hm⟩ := List.prefix_cons_iff.mp hp
        · rfl
        · rw [readLetters, if_pos rfl]
          exact ih more hm fun he => hne (he ▸ rfl)

end DocRun.Json

namespace DocRun.Json.Literal

theorem Quad.length_eq {n : Nat} {digits : List Char} (h : Quad n digits) :
    digits.length = 4 := by
  cases h
  rfl

theorem Quad.ascii {n : Nat} {digits : List Char} (h : Quad n digits) :
    ∀ c ∈ digits, c.toNat < 0x80 := by
  have hdigit : ∀ {d : Nat} {c : Char}, Hex.IsDigit d c → c.toNat < 0x80 := by
    intro d c hd
    have := Hex.toNat_lt_of_value? (Hex.value?_eq_some_iff.mpr hd)
    omega
  cases h with
  | digits ha hb hc hd => simp [hdigit ha, hdigit hb, hdigit hc, hdigit hd]

theorem takes_unit {n : Nat} {digits : List Char} (h : Quad n digits) :
    Takes Fault.endOfText readUnit digits (n, ·) where
  whole := readUnit_quad h
  part := by
    intro part hp hne
    have hlen : part.length < 4 := by
      have hle := hp.length_le
      have hn : part.length ≠ digits.length := fun he => hne (hp.eq_of_length he)
      have hfour := h.length_eq
      omega
    have hbytes : (Utf8.encode part).length < 4 := by
      rwa [Utf8.encode_of_ascii fun c hc => h.ascii c (hp.subset hc), List.length_map]
    unfold readUnit
    split
    · simp only [List.length_cons] at hlen
      omega
    · exact if_pos hbytes

theorem takes_trail (lead : Nat) {n : Nat} {digits : List Char} (h : Quad n digits)
    (ht : isTrailing n = true) :
    Takes Fault.endOfText (readTrail lead) ('\\' :: 'u' :: digits) (scalarOfPair lead n, ·) := by
  have hdigits : Takes Fault.endOfText (fun text => readTrail lead ('\\' :: 'u' :: text)) digits
      (scalarOfPair lead n, ·) := {
    whole := readTrail_quad lead h ht
    part := by
      intro part hp hne
      simp only [readTrail, (takes_unit h).part part hp hne, bind, Except.bind] }
  exact .cons rfl (.cons rfl hdigits)

-- A cut through a spelling leaves too few digits, or nothing behind a backslash, or nothing at
-- all.
theorem takes_item {c : Char} {spelled : List Char} (h : SpellsChar c spelled) :
    Takes Fault.endOfText readItem spelled (some c, ·) := by
  have hwhole := readItem_of_spellsChar h
  cases h with
  | plain hquote hback hlow => exact .cons rfl (.nil hwhole)
  | short h => exact .cons rfl (.cons rfl (.nil hwhole))
  | @digits digits h =>
      have hdigits : Takes Fault.endOfText (fun text => readItem ('\\' :: 'u' :: text)) digits
          (some c, ·) := {
        whole := hwhole
        part := by
          intro part hp hne
          simp only [readItem, readEscape, readUnicode, (takes_unit h).part part hp hne, bind,
            Except.bind] }
      exact .cons rfl (.cons rfl hdigits)
  | @pair lead trail h hlead htrail =>
      obtain ⟨hl, hn⟩ := isLeading_lead c
      have htakes := takes_trail (0xD800 + (c.toNat - 0x10000) / 0x400) htrail
        (isTrailing_trail c)
      have hpair : Takes Fault.endOfText (fun text => readItem ('\\' :: 'u' :: text))
          (lead ++ '\\' :: 'u' :: trail) (some c, ·) := {
        whole := hwhole
        part := by
          intro part hp hne
          obtain ⟨hp, hne⟩ | ⟨more, hm, rfl⟩ := prefix_append_cases hp
          · simp only [readItem, readEscape, readUnicode, (takes_unit hlead).part part hp hne,
              bind, Except.bind]
          · have hmore := htakes.part more hm fun he => hne (he ▸ rfl)
            simp only [readItem, readEscape, readUnicode, (takes_unit hlead).whole more, hn, hl,
              hmore, bind, Except.bind, if_true]
            rfl }
      exact .cons rfl (.cons rfl hpair)

theorem read_of_fault {text : List Char} {fault : Fault} (h : readItem text = .error fault) :
    read text = .error fault := by
  rw [read]
  split
  · simp_all
  · simp_all
  · simp_all

-- A literal that is not closed keeps the reader waiting, wherever its text breaks off.
theorem takes_read {body spelled : List Char} (h : Spells body spelled) :
    Takes Fault.endOfText read (spelled ++ ['"']) (body, ·) where
  whole := by
    intro rest
    rw [List.append_assoc]
    exact read_of_spells h rest
  part := by
    induction h with
    | nil =>
        intro part hp hne
        obtain rfl | ⟨more, rfl, hm⟩ := List.prefix_cons_iff.mp hp
        · exact read_of_fault rfl
        · exact absurd (by rw [List.prefix_nil.mp hm]; rfl) hne
    | cons hc h ih =>
        intro part hp hne
        rw [List.append_assoc] at hp hne
        obtain ⟨hp, hne⟩ | ⟨more, hm, rfl⟩ := prefix_append_cases hp
        · exact read_of_fault ((takes_item hc).part part hp hne)
        · rw [read_of_char (readItem_of_spellsChar hc more), ih more hm fun he => hne (he ▸ rfl)]
          rfl

end DocRun.Json.Literal
