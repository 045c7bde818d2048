import RouteBook.Proofs.Json.Grammar

/-! Values that are passed over. What is passed over is a value of the grammar, and every value of the grammar is passed over,
whatever it would mean and however deep its brackets nest. So the texts of a text's items and members are settled by the
grammar. -/

namespace RouteBook.Json

variable {text text' rest rest' gap gap' lead lead' : List Char} {c d : Char} {first : Bool}

/-! ### White space -/

theorem exists_gap (h : skipSpace text = rest) : ∃ gap, Blank gap ∧ text = gap ++ rest := by
  have hsplit : text.takeWhile isSpace ++ skipSpace text = text := List.takeWhile_append_dropWhile
  exact ⟨text.takeWhile isSpace, fun _ hc => List.mem_takeWhile_imp hc, h ▸ hsplit.symm⟩

theorem skipSpace_gap (hgap : Blank gap) (hc : isSpace c = false) (rest : List Char) :
    skipSpace (gap ++ c :: rest) = c :: rest := by rw [skipSpace_append hgap, skipSpace_cons hc]

/-- White space is told from what stands behind it. -/
theorem gap_cancel (hgap : Blank gap) (hgap' : Blank gap') (hc : isSpace c = false) (hd : isSpace d = false)
    (h : gap ++ c :: rest = gap' ++ d :: rest') : c = d ∧ rest = rest' := by
  rw [← List.cons_eq_cons, ← skipSpace_gap hgap hc, h, skipSpace_gap hgap' hd]

/-- Exactly the expected letters are read. -/
theorem readWord_eq_ok_iff {word : List Char} {result : Unit} :
    readWord word text = .ok (result, rest) ↔ text = word ++ rest := by
  induction word generalizing text with
  | nil => simp [readWord]
  | cons d word ih =>
      cases text with
      | nil => simp [readWord]
      | cons e text =>
          rw [readWord, List.cons_append, List.cons_eq_cons, eq_comm (a := e)]
          split_ifs with hd
          · simp [hd, ih]
          · simp [hd]

namespace Skip

/-! ### Strings -/

theorem escape_eq_ok_iff : escape text = .ok rest ↔ ∃ mark, Marked mark ∧ text = mark ++ rest := by
  constructor
  · intro h
    unfold escape at h
    split at h
    · cases h
    · next letter behind =>
      split_ifs at h with hshort hu
      · cases h
        obtain ⟨c, hc⟩ := Option.isSome_iff_exists.mp hshort
        exact ⟨[letter], .letter (shortEscape?_eq_some_iff.mp hc), rfl⟩
      · obtain ⟨⟨n, left⟩, hread, rfl⟩ := map_eq_ok_iff.mp h
        obtain ⟨digits, hdigits, rfl⟩ := readHex_eq_ok_iff.mp hread
        exact ⟨'u' :: digits, .unit hdigits, by rw [hu]; rfl⟩
  · rintro ⟨mark, hmark, rfl⟩
    cases hmark with
    | letter h => simp [escape, shortEscape?_eq_some_iff.mpr h]
    | unit h => simp [escape, shortEscape?_u, h.readHex rest, Except.map]

theorem exists_quoted {fuel : Nat} (h : stringWithin fuel text = .ok rest) : ∃ front, Quoted front ∧ text = front ++ rest := by
  induction fuel generalizing text with
  | zero => cases h
  | succ fuel ih =>
      cases text with
      | nil => cases h
      | cons c text =>
          rw [stringWithin] at h
          split_ifs at h with hquote hbackslash hcontrol
          · cases h
            exact ⟨['"'], .close, by rw [hquote]; rfl⟩
          · obtain ⟨behind, hescape, hbehind⟩ := bind_eq_ok_iff.mp h
            obtain ⟨front, hfront, rfl⟩ := ih hbehind
            obtain ⟨mark, hmark, rfl⟩ := escape_eq_ok_iff.mp hescape
            exact ⟨'\\' :: (mark ++ front), .escape hmark hfront, by simp [hbackslash]⟩
          · obtain ⟨front, hfront, rfl⟩ := ih h
            exact ⟨c :: front, .plain hquote hbackslash (by omega) hfront, rfl⟩

theorem stringWithin_quoted {fuel : Nat} (h : Quoted text) (hfuel : text.length ≤ fuel) :
    stringWithin fuel (text ++ rest) = .ok rest := by
  induction h generalizing fuel with
  | close =>
      obtain ⟨fuel, rfl⟩ := Nat.exists_eq_succ_of_ne_zero (Nat.ne_zero_of_lt hfuel)
      rw [List.singleton_append, stringWithin, if_pos rfl]
  | plain hquote hbackslash hcontrol _ ih =>
      obtain ⟨fuel, rfl⟩ := Nat.exists_eq_succ_of_ne_zero (Nat.ne_zero_of_lt hfuel)
      rw [List.cons_append, stringWithin, if_neg hquote, if_neg hbackslash, if_neg (by omega)]
      exact ih (by simpa using hfuel)
  | @escape mark text hmark _ ih =>
      obtain ⟨fuel, rfl⟩ := Nat.exists_eq_succ_of_ne_zero (Nat.ne_zero_of_lt hfuel)
      have hescape : escape (mark ++ (text ++ rest)) = .ok (text ++ rest) := escape_eq_ok_iff.mpr ⟨mark, hmark, rfl⟩
      rw [List.cons_append, List.append_assoc, stringWithin, if_neg (by decide), if_pos rfl, hescape, ok_bind]
      rw [List.length_cons, List.length_append] at hfuel
      exact ih (by omega)

theorem string_quoted (h : Quoted text) (rest : List Char) : string (text ++ rest) = .ok rest :=
  stringWithin_quoted h (by rw [List.length_append]; omega)

/-! ### Numbers -/

theorem exists_digits (h : text.head?.any Char.isDigit = true) : ∃ shown, Digits shown ∧ text = shown ++ digits text := by
  refine ⟨text.takeWhile Char.isDigit, ⟨?_, fun _ hc => List.mem_takeWhile_imp hc⟩, List.takeWhile_append_dropWhile.symm⟩
  cases text with
  | nil => cases h
  | cons c text => simp [List.takeWhile_cons_of_pos (show c.isDigit = true from h)]

theorem digits_append {shown : List Char} (h : ∀ c ∈ shown, c.isDigit = true) (hrest : rest.head?.any Char.isDigit = false) :
    digits (shown ++ rest) = rest := by
  rw [digits, List.dropWhile_append_of_pos h]
  cases rest with
  | nil => rfl
  | cons c rest => exact List.dropWhile_cons_of_neg (by simpa using hrest)

theorem any_isDigit_of_digits {shown : List Char} (h : Digits shown) (rest : List Char) :
    (shown ++ rest).head?.any Char.isDigit = true := by
  obtain ⟨c, more, rfl⟩ := List.exists_cons_of_ne_nil h.1
  exact h.2 c List.mem_cons_self

theorem any_isDigit_of_ends (h : Ends rest) : rest.head?.any Char.isDigit = false := by
  cases rest with
  | nil => rfl
  | cons c rest => exact (h c rfl).1

theorem any_isDigit_of_exponent {behind : List Char} (h : Exponent behind) (hrest : Ends rest) :
    (behind ++ rest).head?.any Char.isDigit = false := by
  cases h with
  | none => exact any_isDigit_of_ends hrest
  | digits hmark _ _ => fin_cases hmark <;> rfl

theorem any_isDigit_of_fraction {middle behind : List Char} (hmiddle : Fraction middle) (h : Exponent behind)
    (hrest : Ends rest) : (middle ++ (behind ++ rest)).head?.any Char.isDigit = false := by
  cases hmiddle with
  | none =>
      rw [List.nil_append]
      exact any_isDigit_of_exponent h hrest
  | digits _ => rfl

/-- The form of an exponent behind its mark. -/
theorem exists_of_exponent (h : exponent text = .ok rest) :
    ∃ sign shown, sign ∈ [[], ['+'], ['-']] ∧ Digits shown ∧ text = sign ++ (shown ++ rest) := by
  unfold exponent at h
  extract_lets after at h
  split_ifs at h with hdigit
  cases h
  obtain ⟨shown, hshown, hafter⟩ := exists_digits hdigit
  have hsign : ∃ sign, sign ∈ [[], ['+'], ['-']] ∧ text = sign ++ after := by
    simp only [after]
    split
    · exact ⟨['+'], by decide, rfl⟩
    · exact ⟨['-'], by decide, rfl⟩
    · exact ⟨[], by decide, rfl⟩
  obtain ⟨sign, hsign, htext⟩ := hsign
  exact ⟨sign, shown, hsign, hshown, by rw [← hafter, htext]⟩

theorem exponent_append {sign shown : List Char} (hsign : sign ∈ [[], ['+'], ['-']]) (hshown : Digits shown)
    (hrest : Ends rest) : exponent (sign ++ (shown ++ rest)) = .ok rest := by
  have hleft := digits_append hshown.2 (any_isDigit_of_ends hrest)
  obtain ⟨c, more, hshown'⟩ := List.exists_cons_of_ne_nil hshown.1
  have hc : c.isDigit = true := hshown.2 c (by simp [hshown'])
  have hplus : c ≠ '+' := by rintro rfl; exact absurd hc (by decide)
  have hminus : c ≠ '-' := by rintro rfl; exact absurd hc (by decide)
  rw [hshown', List.cons_append] at hleft ⊢
  fin_cases hsign <;> simp [exponent, hleft, hplus, hminus, hc]

theorem exists_of_afterWhole (h : afterWhole text = .ok rest) :
    ∃ middle behind, Fraction middle ∧ Exponent behind ∧ text = middle ++ (behind ++ rest) := by
  have hexponent : ∀ {mark : Char} {after : List Char}, mark ∈ ['e', 'E'] → exponent after = .ok rest →
      ∃ behind, Exponent behind ∧ mark :: after = behind ++ rest := by
    intro mark after hmark hafter
    obtain ⟨sign, shown, hsign, hshown, rfl⟩ := exists_of_exponent hafter
    exact ⟨mark :: (sign ++ shown), .digits hmark hsign hshown, by simp⟩
  unfold afterWhole at h
  split at h
  · next after =>
    split_ifs at h with hdigit
    obtain ⟨shown, hshown, hafter⟩ := exists_digits hdigit
    have hbehind : ∃ behind, Exponent behind ∧ digits after = behind ++ rest := by
      split at h
      · next hmark => exact hmark ▸ hexponent (by decide) h
      · next hmark => exact hmark ▸ hexponent (by decide) h
      · cases h
        exact ⟨[], .none, rfl⟩
    obtain ⟨behind, hbehind, hleft⟩ := hbehind
    exact ⟨'.' :: shown, behind, .digits hshown, hbehind, by rw [hafter, hleft]; simp⟩
  · obtain ⟨behind, hbehind, htext⟩ := hexponent (show 'e' ∈ ['e', 'E'] by decide) h
    exact ⟨[], behind, .none, hbehind, htext⟩
  · obtain ⟨behind, hbehind, htext⟩ := hexponent (show 'E' ∈ ['e', 'E'] by decide) h
    exact ⟨[], behind, .none, hbehind, htext⟩
  · cases h
    exact ⟨[], [], .none, .none, rfl⟩

theorem afterWhole_append {middle behind : List Char} (hmiddle : Fraction middle) (hbehind : Exponent behind)
    (hrest : Ends rest) : afterWhole (middle ++ (behind ++ rest)) = .ok rest := by
  cases hmiddle with
  | none =>
      cases hbehind with
      | none =>
          cases rest with
          | nil => rfl
          | cons c rest =>
              have hc := (hrest c rfl).2
              simp only [List.mem_cons, List.not_mem_nil, or_false, not_or] at hc
              simp [afterWhole, hc]
      | digits hmark hsign hshown =>
          have hexponent := exponent_append hsign hshown hrest
          fin_cases hmark <;> simpa [afterWhole] using hexponent
  | @digits shown hshown =>
      have hdigit := any_isDigit_of_digits hshown (behind ++ rest)
      have hleft := digits_append hshown.2 (any_isDigit_of_exponent hbehind hrest)
      rw [List.cons_append, afterWhole, if_pos hdigit, hleft]
      cases hbehind with
      | none =>
          cases rest with
          | nil => rfl
          | cons c rest =>
              have hc := (hrest c rfl).2
              simp only [List.mem_cons, List.not_mem_nil, or_false, not_or] at hc
              simp [hc]
      | digits hmark hsign hshown =>
          have hexponent := exponent_append hsign hshown hrest
          fin_cases hmark <;> simpa using hexponent

theorem exists_unsigned (h : number text = .ok rest) : ∃ front, Unsigned front ∧ text = front ++ rest := by
  unfold number at h
  split at h
  · split_ifs at h with hdigit
    obtain ⟨middle, behind, hmiddle, hbehind, rfl⟩ := exists_of_afterWhole h
    exact ⟨['0'] ++ (middle ++ behind), .mk ⟨by simp, List.forall_mem_singleton.mpr rfl⟩ (fun _ => rfl) hmiddle hbehind, by simp⟩
  · next c after hzero =>
    split_ifs at h with hdigit
    obtain ⟨middle, behind, hmiddle, hbehind, hleft⟩ := exists_of_afterWhole h
    have hwhole : Digits (c :: after.takeWhile Char.isDigit) :=
      ⟨by simp, List.forall_mem_cons.mpr ⟨hdigit, fun _ hc => List.mem_takeWhile_imp hc⟩⟩
    have hsplit : after.takeWhile Char.isDigit ++ digits after = after := List.takeWhile_append_dropWhile
    refine ⟨_, .mk hwhole (fun hc => absurd (Option.some.inj hc) hzero) hmiddle hbehind, ?_⟩
    rw [List.append_assoc, List.append_assoc, ← hleft, List.cons_append, hsplit]
  · cases h

theorem number_unsigned (h : Unsigned text) (hrest : Ends rest) : number (text ++ rest) = .ok rest := by
  obtain ⟨hwhole, hzero, hmiddle, hbehind⟩ := h
  next whole middle behind =>
  have hafter := afterWhole_append hmiddle hbehind hrest
  have hstop := any_isDigit_of_fraction hmiddle hbehind hrest
  obtain ⟨c, more, rfl⟩ := List.exists_cons_of_ne_nil hwhole.1
  obtain ⟨hc, hmore⟩ := List.forall_mem_cons.mp hwhole.2
  rw [List.append_assoc, List.append_assoc]
  by_cases hzero' : c = '0'
  · subst hzero'
    obtain rfl := (List.cons_eq_cons.mp (hzero rfl)).2
    rw [List.singleton_append, number, hstop, if_neg Bool.false_ne_true, hafter]
  · rw [List.cons_append, number]
    · rw [if_pos hc, digits_append hmore hstop, hafter]
    · exact hzero'

end Skip

/-! ### Values -/

theorem Unsigned.opens (h : Unsigned text) : Opens text := by
  obtain ⟨hwhole, -, -, -⟩ := h
  obtain ⟨c, more, rfl⟩ := List.exists_cons_of_ne_nil hwhole.1
  have hc : c.isDigit = true := hwhole.2 c List.mem_cons_self
  refine ⟨c, _, rfl, ?_, ?_, ?_⟩
  · rw [Bool.eq_false_iff]
    intro hspace
    simp only [isSpace, Bool.or_eq_true, decide_eq_true_eq] at hspace
    rcases hspace with ((rfl | rfl) | rfl) | rfl <;> exact absurd hc (by decide)
  · rintro rfl
    exact absurd hc (by decide)
  · rintro rfl
    exact absurd hc (by decide)

theorem Form.opens (h : Form .value text) : Opens text := by
  cases h with
  | null => exact ⟨'n', _, rfl, by decide⟩
  | bool b => cases b <;> exact ⟨_, _, rfl, by decide⟩
  | positive h => exact h.opens
  | negative _ => exact ⟨'-', _, rfl, by decide⟩
  | string _ => exact ⟨'"', _, rfl, by decide⟩
  | array _ => exact ⟨'[', _, rfl, by decide⟩
  | object _ => exact ⟨'{', _, rfl, by decide⟩

theorem Form.length_pos {kind : Nonterminal} (h : Form kind text) : 0 < text.length := by
  have hvalue : ∀ {value}, Form .value value → 0 < value.length := by
    intro value hvalue
    obtain ⟨c, more, rfl, -⟩ := hvalue.opens
    exact Nat.succ_pos _
  cases kind with
  | value => exact hvalue h
  | items first values =>
      cases h with
      | endItems _ => simp
      | item _ h _ =>
          have hpos := hvalue h
          simp only [List.length_append]
          omega
  | members first members => cases h <;> simp

theorem Blank.append (hgap : Blank gap) (hgap' : Blank gap') : Blank (gap ++ gap') := fun c hc =>
  (List.mem_append.mp hc).elim (hgap c) (hgap' c)

theorem Lead.ends (h : Lead false lead) (rest : List Char) : Ends (lead ++ rest) := by
  cases h with
  | later hgap _ =>
      rw [List.append_assoc]
      exact ends_append hgap (ends_cons (by decide) _)

/-- Behind an item or a member stands what cannot go on with it. -/
theorem Form.ends {kind : Nonterminal} (h : Form kind text) (hkind : (∃ values, kind = .items false values) ∨
    ∃ members, kind = .members false members) (rest : List Char) : Ends (text ++ rest) := by
  obtain ⟨values, rfl⟩ | ⟨members, rfl⟩ := hkind
  · cases h with
    | endItems hgap =>
        rw [List.append_assoc]
        exact ends_append hgap (ends_cons (by decide) _)
    | item hlead _ _ =>
        rw [List.append_assoc]
        exact hlead.ends _
  · cases h with
    | endMembers hgap =>
        rw [List.append_assoc]
        exact ends_append hgap (ends_cons (by decide) _)
    | member hlead _ _ _ _ _ =>
        rw [List.append_assoc]
        exact hlead.ends _

namespace Skip

/-- Within a number of steps, what is passed over is a value with white space before it, or the rest of an array, of an object
or of a member. -/
structure TakesForms (fuel : Nat) : Prop where
  value : ∀ ⦃text rest⦄, valueWithin fuel text = .ok rest →
    ∃ gap front, Blank gap ∧ Form .value front ∧ text = gap ++ (front ++ rest)
  items : ∀ ⦃first text rest⦄, items fuel first text = .ok rest →
    ∃ values front, Form (.items first values) front ∧ text = front ++ rest
  members : ∀ ⦃first text rest⦄, members fuel first text = .ok rest →
    ∃ members front, Form (.members first members) front ∧ text = front ++ rest
  member : ∀ ⦃text rest⦄, member fuel text = .ok rest →
    ∃ key gap gap' value members more, Quoted key ∧ Blank gap ∧ Blank gap' ∧ Form .value value ∧
      Form (.members false members) more ∧ text = '"' :: (key ++ (gap ++ ':' :: (gap' ++ (value ++ (more ++ rest)))))

namespace TakesForms

variable {fuel : Nat}

theorem value_succ (h : TakesForms fuel) (hpass : valueWithin (fuel + 1) text = .ok rest) :
    ∃ gap front, Blank gap ∧ Form .value front ∧ text = gap ++ (front ++ rest) := by
  obtain ⟨gap, hgap, htext⟩ := exists_gap (rfl : skipSpace text = skipSpace text)
  suffices hfront : ∃ front, Form .value front ∧ skipSpace text = front ++ rest by
    obtain ⟨front, hform, hfront⟩ := hfront
    exact ⟨gap, front, hgap, hform, hfront ▸ htext⟩
  have hword : ∀ {word left : List Char}, (readWord word left).map Prod.snd = .ok rest → left = word ++ rest := by
    intro word left hword
    obtain ⟨⟨_, behind⟩, hread, rfl⟩ := map_eq_ok_iff.mp hword
    exact readWord_eq_ok_iff.mp hread
  rw [valueWithin] at hpass
  split at hpass
  · cases hpass
  · next hstart => exact ⟨_, .null, by rw [hstart, hword hpass]; rfl⟩
  · next hstart => exact ⟨_, .bool true, by rw [hstart, hword hpass]; rfl⟩
  · next hstart => exact ⟨_, .bool false, by rw [hstart, hword hpass]; rfl⟩
  · next hstart =>
    obtain ⟨front, hfront, rfl⟩ := exists_unsigned hpass
    exact ⟨'-' :: front, .negative hfront, hstart⟩
  · next hstart =>
    obtain ⟨front, hfront, rfl⟩ := exists_quoted hpass
    exact ⟨'"' :: front, .string hfront, hstart⟩
  · next hstart =>
    obtain ⟨values, front, hfront, rfl⟩ := h.items hpass
    exact ⟨'[' :: front, .array hfront, hstart⟩
  · next hstart =>
    obtain ⟨members, front, hfront, rfl⟩ := h.members hpass
    exact ⟨'{' :: front, .object hfront, hstart⟩
  · next hstart =>
    split_ifs at hpass
    obtain ⟨front, hfront, hleft⟩ := exists_unsigned hpass
    exact ⟨front, .positive hfront, hstart.trans hleft⟩

theorem items_succ (h : TakesForms fuel) (hpass : Skip.items (fuel + 1) first text = .ok rest) :
    ∃ values front, Form (.items first values) front ∧ text = front ++ rest := by
  obtain ⟨gap, hgap, htext⟩ := exists_gap (rfl : skipSpace text = skipSpace text)
  rw [Skip.items] at hpass
  split at hpass
  · cases hpass
  · next hstart =>
    cases hpass
    exact ⟨[], gap ++ [']'], .endItems hgap, by rw [htext, hstart]; simp⟩
  · split_ifs at hpass with hfirst
    · obtain ⟨left, hcontent, hleft⟩ := bind_eq_ok_iff.mp hpass
      obtain ⟨values, more, hmore, rfl⟩ := h.items hleft
      obtain ⟨gap', value, hgap', hvalue, hstart⟩ := h.value hcontent
      subst hfirst
      exact ⟨_, _, .item (.first (hgap.append hgap')) hvalue hmore, by rw [htext, hstart]; simp⟩
    · split at hpass
      · next hstart =>
        obtain ⟨left, hcontent, hleft⟩ := bind_eq_ok_iff.mp hpass
        obtain ⟨values, more, hmore, rfl⟩ := h.items hleft
        obtain ⟨gap', value, hgap', hvalue, hcomma⟩ := h.value hcontent
        obtain rfl := Bool.eq_false_iff.mpr hfirst
        exact ⟨_, _, .item (.later hgap hgap') hvalue hmore, by rw [htext, hstart, hcomma]; simp⟩
      · cases hpass

theorem members_succ (h : TakesForms fuel) (hpass : Skip.members (fuel + 1) first text = .ok rest) :
    ∃ members front, Form (.members first members) front ∧ text = front ++ rest := by
  obtain ⟨gap, hgap, htext⟩ := exists_gap (rfl : skipSpace text = skipSpace text)
  rw [Skip.members] at hpass
  split at hpass
  · cases hpass
  · next hstart =>
    cases hpass
    exact ⟨[], gap ++ ['}'], .endMembers hgap, by rw [htext, hstart]; simp⟩
  · split_ifs at hpass with hfirst
    · obtain ⟨key, inner, inner', value, members, more, hkey, hinner, hinner', hvalue, hmore, hstart⟩ := h.member hpass
      subst hfirst
      exact ⟨_, _, .member (.first hgap) hkey hinner hinner' hvalue hmore, by rw [htext, hstart]; simp⟩
    · split at hpass
      · next behind hstart =>
        obtain ⟨gap', hgap', hcomma⟩ := exists_gap (rfl : skipSpace behind = skipSpace behind)
        obtain ⟨key, inner, inner', value, members, more, hkey, hinner, hinner', hvalue, hmore, hmember⟩ := h.member hpass
        obtain rfl := Bool.eq_false_iff.mpr hfirst
        exact ⟨_, _, .member (.later hgap hgap') hkey hinner hinner' hvalue hmore,
          by rw [htext, hstart, hcomma, hmember]; simp⟩
      · cases hpass

theorem member_succ (h : TakesForms fuel) (hpass : Skip.member (fuel + 1) text = .ok rest) :
    ∃ key gap gap' value members more, Quoted key ∧ Blank gap ∧ Blank gap' ∧ Form .value value ∧
      Form (.members false members) more ∧ text = '"' :: (key ++ (gap ++ ':' :: (gap' ++ (value ++ (more ++ rest))))) := by
  rw [Skip.member.eq_def] at hpass
  dsimp only at hpass
  split at hpass
  · cases hpass
  · obtain ⟨behind, hname, hbehind⟩ := bind_eq_ok_iff.mp hpass
    split at hbehind
    · cases hbehind
    · next hcolon =>
      obtain ⟨left, hcontent, hleft⟩ := bind_eq_ok_iff.mp hbehind
      obtain ⟨key, hkey, rfl⟩ := exists_quoted hname
      obtain ⟨gap, hgap, rfl⟩ := exists_gap hcolon
      obtain ⟨members, more, hmore, rfl⟩ := h.members hleft
      obtain ⟨gap', value, hgap', hvalue, rfl⟩ := h.value hcontent
      exact ⟨key, gap, gap', value, members, more, hkey, hgap, hgap', hvalue, hmore, rfl⟩
    · cases hbehind
  · cases hpass

end TakesForms

theorem takesForms (fuel : Nat) : TakesForms fuel := by
  induction fuel with
  | zero => exact ⟨nofun, nofun, nofun, nofun⟩
  | succ fuel ih =>
      exact ⟨fun _ _ => ih.value_succ, fun _ _ _ => ih.items_succ, fun _ _ _ => ih.members_succ, fun _ _ => ih.member_succ⟩

/-- What is passed over is a value, with white space before it. -/
theorem exists_form {result : Unit} (h : value text = .ok (result, rest)) :
    ∃ gap front, Blank gap ∧ Form .value front ∧ text = gap ++ (front ++ rest) := by
  obtain ⟨left, hleft, heq⟩ := map_eq_ok_iff.mp h
  cases heq
  exact (takesForms _).value hleft

section Steps

variable {fuel : Nat} {left key : List Char}

theorem valueWithin_digit (hc : c.isDigit = true) : valueWithin (fuel + 1) (c :: text) = number (c :: text) := by
  have hne : ∀ d, d.isDigit = false → c ≠ d := by
    rintro d hd rfl
    rw [hc] at hd
    cases hd
  have hspace : isSpace c = false := by simp [isSpace, hne]
  rw [valueWithin, skipSpace_cons hspace]
  simp [hne, hc]

theorem valueWithin_gap (hgap : Blank gap) (h : valueWithin fuel text = .ok rest) :
    valueWithin fuel (gap ++ text) = .ok rest := by
  cases fuel with
  | zero => cases h
  | succ fuel =>
      rw [valueWithin] at h ⊢
      rwa [skipSpace_append hgap]

theorem items_close (hgap : Blank gap) : items (fuel + 1) first (gap ++ ']' :: rest) = .ok rest := by
  rw [items, skipSpace_gap hgap (by decide)]
  rfl

theorem items_item (hlead : Lead first lead) (hopens : Opens text) (hvalue : valueWithin fuel text = .ok left)
    (hmore : items fuel false left = .ok rest) : items (fuel + 1) first (lead ++ text) = .ok rest := by
  cases hlead with
  | first hgap =>
      obtain ⟨c, more, rfl, hc, -, hclose⟩ := hopens
      rw [items, skipSpace_gap hgap hc]
      simp [hclose, hvalue, ok_bind, hmore]
  | later hgap hgap' =>
      rw [List.append_assoc, List.cons_append, items, skipSpace_gap hgap (by decide)]
      simp [valueWithin_gap hgap' hvalue, ok_bind, hmore]

theorem members_close (hgap : Blank gap) : members (fuel + 1) first (gap ++ '}' :: rest) = .ok rest := by
  rw [members, skipSpace_gap hgap (by decide)]
  rfl

theorem members_member (hlead : Lead first lead) (hmember : member fuel ('"' :: text) = .ok rest) :
    members (fuel + 1) first (lead ++ '"' :: text) = .ok rest := by
  cases hlead with
  | first hgap =>
      rw [members, skipSpace_gap hgap (by decide)]
      exact hmember
  | later hgap hgap' =>
      rw [List.append_assoc, List.cons_append, members, skipSpace_gap hgap (by decide)]
      simpa [skipSpace_gap hgap' (show isSpace '"' = false by decide)] using hmember

theorem member_append (hkey : Quoted key) (hgap : Blank gap) (hvalue : valueWithin fuel text = .ok left)
    (hmore : members fuel false left = .ok rest) : member (fuel + 1) ('"' :: (key ++ (gap ++ ':' :: text))) = .ok rest := by
  rw [member.eq_def]
  simp only [string_quoted hkey, ok_bind, skipSpace_gap hgap (show isSpace ':' = false by decide), hvalue, hmore]

end Steps

/-- A part of a text is passed over, with two steps for each character, as far as what stands behind it. -/
def Passes : Nonterminal → List Char → Prop
  | .value, text => ∀ fuel rest, 2 * text.length ≤ fuel → Ends rest → valueWithin fuel (text ++ rest) = .ok rest
  | .items first _, text => ∀ fuel rest, 2 * text.length ≤ fuel → items fuel first (text ++ rest) = .ok rest
  | .members first _, text => ∀ fuel rest, 2 * text.length ≤ fuel → members fuel first (text ++ rest) = .ok rest

theorem passes_null : Passes .value "null".toList := by
  intro fuel rest hfuel _
  obtain ⟨fuel, rfl⟩ := Nat.exists_eq_succ_of_ne_zero (Nat.ne_zero_of_lt hfuel)
  have htext : "null".toList ++ rest = 'n' :: 'u' :: 'l' :: 'l' :: rest := rfl
  rw [htext, valueWithin, skipSpace_cons (by decide)]
  rfl

theorem passes_bool (b : Bool) : Passes .value (if b then "true".toList else "false".toList) := by
  intro fuel rest hfuel _
  have hpos : 0 < fuel := by
    cases b with
    | true => exact Nat.lt_of_lt_of_le (by decide) hfuel
    | false => exact Nat.lt_of_lt_of_le (by decide) hfuel
  obtain ⟨fuel, rfl⟩ := Nat.exists_eq_succ_of_ne_zero hpos.ne'
  cases b with
  | true =>
      have htext : "true".toList ++ rest = 't' :: 'r' :: 'u' :: 'e' :: rest := rfl
      rw [if_pos rfl, htext, valueWithin, skipSpace_cons (by decide)]
      rfl
  | false =>
      have htext : "false".toList ++ rest = 'f' :: 'a' :: 'l' :: 's' :: 'e' :: rest := rfl
      rw [if_neg (by decide), htext, valueWithin, skipSpace_cons (by decide)]
      rfl

theorem passes_form {kind : Nonterminal} (h : Form kind text) : Passes kind text := by
  induction h with
  | null => exact passes_null
  | bool b => exact passes_bool b
  | positive h =>
      intro fuel rest hfuel hrest
      have hnumber := number_unsigned h hrest
      obtain ⟨hwhole, -, -, -⟩ := h
      obtain ⟨c, more, rfl⟩ := List.exists_cons_of_ne_nil hwhole.1
      obtain ⟨fuel, rfl⟩ := Nat.exists_eq_succ_of_ne_zero (Nat.ne_zero_of_lt hfuel)
      rwa [List.cons_append, List.cons_append, valueWithin_digit (hwhole.2 c List.mem_cons_self)]
  | negative h =>
      intro fuel rest hfuel hrest
      obtain ⟨fuel, rfl⟩ := Nat.exists_eq_succ_of_ne_zero (Nat.ne_zero_of_lt hfuel)
      rw [List.cons_append, valueWithin, skipSpace_cons (by decide)]
      exact number_unsigned h hrest
  | string h =>
      intro fuel rest hfuel _
      obtain ⟨fuel, rfl⟩ := Nat.exists_eq_succ_of_ne_zero (Nat.ne_zero_of_lt hfuel)
      rw [List.cons_append, valueWithin, skipSpace_cons (by decide)]
      exact string_quoted h rest
  | array _ ih =>
      intro fuel rest hfuel _
      obtain ⟨fuel, rfl⟩ := Nat.exists_eq_succ_of_ne_zero (Nat.ne_zero_of_lt hfuel)
      rw [List.length_cons] at hfuel
      rw [List.cons_append, valueWithin, skipSpace_cons (by decide)]
      exact ih fuel rest (by omega)
  | object _ ih =>
      intro fuel rest hfuel _
      obtain ⟨fuel, rfl⟩ := Nat.exists_eq_succ_of_ne_zero (Nat.ne_zero_of_lt hfuel)
      rw [List.length_cons] at hfuel
      rw [List.cons_append, valueWithin, skipSpace_cons (by decide)]
      exact ih fuel rest (by omega)
  | endItems hgap =>
      intro fuel rest hfuel
      rw [List.length_append, List.length_singleton] at hfuel
      obtain ⟨fuel, rfl⟩ := Nat.exists_eq_succ_of_ne_zero (by omega : fuel ≠ 0)
      rw [List.append_assoc, List.singleton_append, items_close hgap]
  | item hlead hvalue hmore ihvalue ihmore =>
      intro fuel rest hfuel
      have hvaluePos := hvalue.length_pos
      have hmorePos := hmore.length_pos
      simp only [List.length_append] at hfuel
      obtain ⟨fuel, rfl⟩ := Nat.exists_eq_succ_of_ne_zero (by omega : fuel ≠ 0)
      have hends := hmore.ends (Or.inl ⟨_, rfl⟩) rest
      rw [List.append_assoc, List.append_assoc]
      exact items_item hlead (hvalue.opens.append _) (ihvalue fuel _ (by omega) hends) (ihmore fuel rest (by omega))
  | endMembers hgap =>
      intro fuel rest hfuel
      rw [List.length_append, List.length_singleton] at hfuel
      obtain ⟨fuel, rfl⟩ := Nat.exists_eq_succ_of_ne_zero (by omega : fuel ≠ 0)
      rw [List.append_assoc, List.singleton_append, members_close hgap]
  | @member _ lead key gap gap' value more _ hlead hkey hgap hgap' hvalue hmore ihvalue ihmore =>
      intro fuel rest hfuel
      simp only [List.length_append, List.length_cons] at hfuel
      -- One step for the member and one for what stands in it.
      obtain ⟨fuel, rfl⟩ : ∃ more, fuel = more + 2 := ⟨fuel - 2, by omega⟩
      have hends := hmore.ends (Or.inr ⟨_, rfl⟩) rest
      have htext : lead ++ '"' :: (key ++ (gap ++ ':' :: (gap' ++ (value ++ more)))) ++ rest =
          lead ++ '"' :: (key ++ (gap ++ ':' :: (gap' ++ (value ++ (more ++ rest))))) := by simp
      rw [htext]
      exact members_member hlead (member_append hkey hgap (valueWithin_gap hgap' (ihvalue fuel _ (by omega) hends))
        (ihmore fuel rest (by omega)))

end Skip

/-! ### Texts of one form only -/

/-- Where a value ends is settled by what may stand behind it. -/
theorem Form.unique (h : Form .value text) (h' : Form .value text') (htext : text ++ rest = text' ++ rest') (hrest : Ends rest)
    (hrest' : Ends rest') : text = text' ∧ rest = rest' := by
  have hpass := Skip.passes_form h (2 * text.length + 2 * text'.length) rest (by omega) hrest
  rw [htext, Skip.passes_form h' _ rest' (by omega) hrest'] at hpass
  obtain rfl := Except.ok.inj hpass
  exact ⟨List.append_cancel_right htext, rfl⟩

theorem Lead.cancel (hlead : Lead first lead) (hlead' : Lead first lead') (h : Opens text) (h' : Opens text')
    (heq : lead ++ text = lead' ++ text') : text = text' := by
  obtain ⟨c, front, rfl, hc, -, -⟩ := h
  obtain ⟨d, front', rfl, hd, -, -⟩ := h'
  rw [List.cons_eq_cons]
  cases hlead with
  | first hgap =>
      cases hlead' with
      | first hgap' => exact gap_cancel hgap hgap' hc hd heq
  | later hgap hgap' =>
      cases hlead' with
      | later hother hother' =>
          rw [List.append_assoc, List.append_assoc, List.cons_append, List.cons_append] at heq
          exact gap_cancel hgap' hother' hc hd (gap_cancel hgap hother (by decide) (by decide) heq).2

/-- Where a closing bracket stands, no item or member does. -/
theorem Lead.not_close (hlead : Lead first lead) (hgap : Blank gap) (hc : c ∈ [']', '}']) (h : Opens text)
    (hhead : text.head? ≠ some c) : gap ++ c :: rest ≠ lead ++ text := by
  intro heq
  have hspace : isSpace c = false := by fin_cases hc <;> rfl
  obtain ⟨d, front, rfl, hd, -, -⟩ := h
  cases hlead with
  | first hgap' => exact hhead (congrArg some (gap_cancel hgap hgap' hspace hd heq).1.symm)
  | later hgap' _ =>
      rw [List.append_assoc, List.cons_append] at heq
      obtain ⟨rfl, -⟩ := gap_cancel hgap hgap' hspace (by decide) heq
      exact absurd hc (by decide)

theorem Opens.head_ne_close (h : Opens text) : text.head? ≠ some ']' := by
  obtain ⟨c, more, rfl, -, -, hclose⟩ := h
  simpa using hclose

theorem Form.items_unique {values values' : List (List Char)} (h : Form (.items first values) text)
    (h' : Form (.items first values') text') (htext : text ++ rest = text' ++ rest') : values = values' ∧ rest = rest' := by
  induction values generalizing first values' text text' with
  | nil =>
      cases h with
      | endItems hgap =>
          cases h' with
          | endItems hgap' =>
              simp only [List.append_assoc, List.singleton_append] at htext
              exact ⟨rfl, (gap_cancel hgap hgap' (by decide) (by decide) htext).2⟩
          | item hlead hvalue _ =>
              simp only [List.append_assoc, List.singleton_append] at htext
              exact absurd htext
                (hlead.not_close hgap (by decide) (hvalue.opens.append _) (hvalue.opens.append _).head_ne_close)
  | cons value values ih =>
      cases h with
      | item hlead hvalue hmore =>
          cases h' with
          | endItems hgap =>
              simp only [List.append_assoc, List.singleton_append] at htext
              exact absurd htext.symm
                (hlead.not_close hgap (by decide) (hvalue.opens.append _) (hvalue.opens.append _).head_ne_close)
          | item hlead' hvalue' hmore' =>
              simp only [List.append_assoc] at htext
              have hstart := hlead.cancel hlead' (hvalue.opens.append _) (hvalue'.opens.append _) htext
              obtain ⟨rfl, hbehind⟩ := hvalue.unique hvalue' hstart (hmore.ends (Or.inl ⟨_, rfl⟩) _)
                (hmore'.ends (Or.inl ⟨_, rfl⟩) _)
              obtain ⟨rfl, rfl⟩ := ih hmore hmore' hbehind
              exact ⟨rfl, rfl⟩

theorem Quoted.unique (h : Quoted text) (h' : Quoted text') (htext : text ++ rest = text' ++ rest') :
    text = text' ∧ rest = rest' := by
  have hpass := Skip.string_quoted h rest
  rw [htext, Skip.string_quoted h'] at hpass
  obtain rfl := Except.ok.inj hpass
  exact ⟨List.append_cancel_right htext, rfl⟩

theorem Form.members_unique {members members' : List (List Char × List Char)} (h : Form (.members first members) text)
    (h' : Form (.members first members') text') (htext : text ++ rest = text' ++ rest') :
    members = members' ∧ rest = rest' := by
  have hopens : ∀ text, Opens ('"' :: text) := fun text => ⟨'"', text, rfl, by decide⟩
  induction members generalizing first members' text text' with
  | nil =>
      cases h with
      | endMembers hgap =>
          cases h' with
          | endMembers hgap' =>
              simp only [List.append_assoc, List.singleton_append] at htext
              exact ⟨rfl, (gap_cancel hgap hgap' (by decide) (by decide) htext).2⟩
          | member hlead =>
              simp only [List.append_assoc, List.cons_append] at htext
              exact absurd htext (hlead.not_close hgap (by decide) (hopens _) (by simp))
  | cons member members ih =>
      cases h with
      | member hlead hkey hgap hgap' hvalue hmore =>
          cases h' with
          | endMembers hclose =>
              simp only [List.append_assoc, List.cons_append] at htext
              exact absurd htext.symm (hlead.not_close hclose (by decide) (hopens _) (by simp))
          | member hlead' hkey' hother hother' hvalue' hmore' =>
              simp only [List.append_assoc, List.cons_append] at htext
              have hstart := (List.cons_eq_cons.mp (hlead.cancel hlead' (hopens _) (hopens _) htext)).2
              obtain ⟨rfl, hbehind⟩ := hkey.unique hkey' hstart
              have hcontent := (gap_cancel hgap hother (by decide) (by decide) hbehind).2
              have hfront := Lead.cancel (.first hgap') (.first hother') (hvalue.opens.append _) (hvalue'.opens.append _) hcontent
              obtain ⟨rfl, hleft⟩ := hvalue.unique hvalue' hfront (hmore.ends (Or.inr ⟨_, rfl⟩) _)
                (hmore'.ends (Or.inr ⟨_, rfl⟩) _)
              obtain ⟨rfl, rfl⟩ := ih hmore hmore' hleft
              exact ⟨rfl, rfl⟩

end RouteBook.Json
