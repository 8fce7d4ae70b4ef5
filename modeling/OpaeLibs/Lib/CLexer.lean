import OpaeLibs.Lib.CGrammar

namespace OpaeLibs.Lib.CLexer

open OpaeLibs.Lib.CGrammar

def isIdentStart (c : Char) : Bool := c.isAlpha || c == '_'

def isIdentChar (c : Char) : Bool := c.isAlphanum || c == '_'

/-- What goes on with a number once it has begun. -/
def isNumberChar (c : Char) : Bool := isIdentChar c || c == '.'

def isIdent : Name → Bool
  | [] => false
  | c :: cs => isIdentStart c && cs.all isIdentChar

/-- A decimal constant. With a zero before its digits it would be octal. -/
def number (s : List Char) : Option Nat :=
  if Nat.toDigits 10 (Nat.ofDigitChars 10 s 0) = s then some (Nat.ofDigitChars 10 s 0) else none

/-- The punctuators of two characters and the beginnings of comments; the inner `none` is for those
that are not part of an expression here. -/
def pair : Char → Char → Option (Option Token)
  | '-', '>' => some (some .arrow)
  | '<', '<' => some (some (.op .shl))
  | '>', '>' => some (some (.op .shr))
  | '<', '=' => some (some (.op .le))
  | '>', '=' => some (some (.op .ge))
  | '=', '=' => some (some (.op .eq))
  | '!', '=' => some (some (.op .ne))
  | '&', '&' => some (some (.op .land))
  | '|', '|' => some (some (.op .lor))
  | '+', '+' => some none
  | '-', '-' => some none
  | '/', '/' => some none
  | '/', '*' => some none
  | '.', '.' => some none
  | c, '=' => if c ∈ ['+', '-', '*', '/', '%', '&', '|', '^'] then some none else none
  | _, _ => none

def single : Char → Option Token
  | '*' => some (.op .mul)
  | '/' => some (.op .div)
  | '%' => some (.op .mod)
  | '+' => some (.op .add)
  | '-' => some (.op .sub)
  | '<' => some (.op .lt)
  | '>' => some (.op .gt)
  | '&' => some (.op .band)
  | '^' => some (.op .bxor)
  | '|' => some (.op .bor)
  | '!' => some .bang
  | '(' => some .lparen
  | ')' => some .rparen
  | '[' => some .lbrack
  | ']' => some .rbrack
  | ',' => some .comma
  | '.' => some .dot
  | _ => none

/-- The longest token at the beginning of a text that is not blank there, and what is left. -/
def munch (c : Char) (cs : List Char) : Option (Token × List Char) :=
  if isIdentStart c then
    some (.ident (c :: cs.takeWhile isIdentChar), cs.dropWhile isIdentChar)
  else if c.isDigit then
    (number (c :: cs.takeWhile isNumberChar)).map fun n => (.num n, cs.dropWhile isNumberChar)
  else
    match cs with
    | [] => (single c).map fun t => (t, [])
    | d :: ds =>
      match pair c d with
      | some t => t.map fun t => (t, ds)
      | none => (single c).map fun t => (t, d :: ds)

/-- At most so many tokens and blanks. -/
def lexFrom : Nat → List Char → Option (List Token)
  | _, [] => some []
  | 0, _ :: _ => none
  | n + 1, c :: cs =>
    if c = ' ' then lexFrom n cs
    else do
      let (t, cs) ← munch c cs
      let ts ← lexFrom n cs
      return t :: ts

def lex (cs : List Char) : Option (List Token) := lexFrom cs.length cs

/-- However many tokens are admitted, a text has the given ones. -/
def Lexes (cs : List Char) (ts : List Token) : Prop :=
  ∀ n, cs.length ≤ n → lexFrom n cs = some ts

section

variable {cs rest : List Char} {ts : List Token}

theorem lex_eq (h : Lexes cs ts) : lex cs = some ts := h cs.length (Nat.le_refl _)

theorem lexes_nil : Lexes [] [] := fun n _ => by rw [lexFrom]

theorem Lexes.blank (h : Lexes cs ts) : Lexes (' ' :: cs) ts := by
  intro n hn
  rw [List.length_cons] at hn
  obtain ⟨n, rfl⟩ := Nat.exists_eq_add_of_le' hn
  exact h _ (Nat.le_add_left ..)

theorem Lexes.munched {c : Char} {t : Token} (hc : c ≠ ' ') (hmunch : munch c cs = some (t, rest))
    (hlen : rest.length ≤ cs.length) (h : Lexes rest ts) : Lexes (c :: cs) (t :: ts) := by
  intro n hn
  rw [List.length_cons] at hn
  obtain ⟨n, rfl⟩ := Nat.exists_eq_add_of_le' hn
  rw [← Nat.add_assoc, lexFrom, if_neg hc, hmunch]
  have hrest := h (n + cs.length) (by omega)
  simp only [bind, Option.bind, hrest]
  rfl

/-- What follows does not belong to a name or a number before it. -/
def Ends (cs : List Char) : Prop := ∀ c ∈ cs.head?, isNumberChar c = false

theorem takeWhile_append_of_all {α : Type} {p : α → Bool} {s t : List α} (hs : ∀ a ∈ s, p a = true)
    (ht : ∀ a ∈ t.head?, p a = false) : (s ++ t).takeWhile p = s ∧ (s ++ t).dropWhile p = t := by
  induction s with
  | nil =>
    cases t with
    | nil => exact ⟨rfl, rfl⟩
    | cons a t =>
      have ha := ht a rfl
      exact ⟨List.takeWhile_cons_of_neg (by simp [ha]), List.dropWhile_cons_of_neg (by simp [ha])⟩
  | cons a s ih =>
    obtain ⟨htake, hdrop⟩ := ih fun b hb => hs b (List.mem_cons_of_mem _ hb)
    have ha := hs a List.mem_cons_self
    rw [List.cons_append, List.takeWhile_cons_of_pos ha, List.dropWhile_cons_of_pos ha, htake,
      hdrop]
    exact ⟨rfl, rfl⟩

theorem ne_blank_of_isIdentStart {c : Char} (h : isIdentStart c = true) : c ≠ ' ' := by
  rintro rfl
  exact absurd h (by decide)

theorem lexes_ident {x : Name} (hx : isIdent x = true)
    (hends : ∀ c ∈ rest.head?, isIdentChar c = false) (h : Lexes rest ts) :
    Lexes (x ++ rest) (.ident x :: ts) := by
  cases x with
  | nil => exact nomatch hx
  | cons c x =>
    rw [isIdent, Bool.and_eq_true, List.all_eq_true] at hx
    obtain ⟨htake, hdrop⟩ := takeWhile_append_of_all hx.2 hends
    apply Lexes.munched (ne_blank_of_isIdentStart hx.1) _ _ h
    · show munch c (x ++ rest) = _
      rw [munch.eq_def, if_pos hx.1, htake, hdrop]
    · exact (List.suffix_append x rest).length_le

theorem not_isIdentStart_of_isDigit {c : Char} (h : c.isDigit = true) :
    isIdentStart c = false := by
  have hle := Char.isDigit_iff_toNat.mp h
  rw [isIdentStart, Bool.or_eq_false_iff]
  constructor
  · rw [Bool.eq_false_iff]
    intro halpha
    simp [Char.isAlpha, Char.isUpper, Char.isLower, UInt32.le_iff_toNat_le] at halpha hle
    omega
  · rw [beq_eq_false_iff_ne]
    rintro rfl
    exact absurd h (by decide)

theorem lexes_num (n : Nat) (hends : Ends rest) (h : Lexes rest ts) :
    Lexes (Nat.toDigits 10 n ++ rest) (.num n :: ts) := by
  have hdigits {c : Char} (hc : c ∈ Nat.toDigits 10 n) : c.isDigit = true :=
    Nat.isDigit_of_mem_toDigits (by decide) (by decide) hc
  have hnumber : number (Nat.toDigits 10 n) = some n := by
    rw [number, Nat.ofDigitChars_toDigits (by decide) (by decide), if_pos rfl]
  obtain ⟨c, cs, hcs⟩ := List.exists_cons_of_ne_nil (Nat.toDigits_ne_nil (n := n) (b := 10))
  rw [hcs] at hnumber
  have hc : c.isDigit = true := hdigits (hcs ▸ List.mem_cons_self)
  have hall : ∀ a ∈ cs, isNumberChar a = true := by
    intro a ha
    have hdigit := hdigits (hcs ▸ List.mem_cons_of_mem c ha)
    rw [isNumberChar, isIdentChar, Char.isAlphanum, hdigit, Bool.or_true]
    rfl
  obtain ⟨htake, hdrop⟩ := takeWhile_append_of_all hall hends
  rw [hcs]
  apply Lexes.munched _ _ _ h
  · rintro rfl
    exact absurd hc (by decide)
  · show munch c (cs ++ rest) = _
    rw [munch.eq_def, not_isIdentStart_of_isDigit hc, hc, htake, hdrop, hnumber]
    rfl
  · exact (List.suffix_append cs rest).length_le

/-- A punctuator begins neither a name nor a number. -/
structure Plain (c : Char) : Prop where
  ne_blank : c ≠ ' '
  isIdentStart : isIdentStart c = false
  isDigit : c.isDigit = false

theorem plain_of_single {c : Char} {t : Token} (h : single c = some t) : Plain c := by
  unfold single at h
  split at h <;> first | exact ⟨by decide, by decide, by decide⟩ | cases h

theorem plain_of_pair {c d : Char} {t : Token} (h : pair c d = some (some t)) : Plain c := by
  unfold pair at h
  split at h <;>
    first | exact ⟨by decide, by decide, by decide⟩ | (split at h <;> cases h) | cases h

theorem lexes_pair {c d : Char} {t : Token} (hpair : pair c d = some (some t))
    (h : Lexes rest ts) : Lexes (c :: d :: rest) (t :: ts) := by
  obtain ⟨hblank, hstart, hdigit⟩ := plain_of_pair hpair
  apply Lexes.munched hblank _ (Nat.le_succ _) h
  rw [munch, hstart, hdigit, hpair]
  rfl

theorem lexes_single {c : Char} {t : Token} (hsingle : single c = some t)
    (hpair : ∀ d ∈ rest.head?, pair c d = none) (h : Lexes rest ts) :
    Lexes (c :: rest) (t :: ts) := by
  obtain ⟨hblank, hstart, hdigit⟩ := plain_of_single hsingle
  apply Lexes.munched hblank _ (Nat.le_refl _) h
  cases rest with
  | nil =>
    rw [munch, hstart, hdigit, hsingle]
    rfl
  | cons d rest =>
    rw [munch, hstart, hdigit, hpair d rfl, hsingle]
    rfl

/-- Two ampersands in a row. -/
def amps : List Char := ['&', '&']

theorem amps_infix_of_cons {c : Char} (h : amps <:+: c :: cs) (hc : c = '&' → cs.head? ≠ some '&') :
    amps <:+: cs := by
  rcases List.infix_cons_iff.mp h with ⟨t, ht⟩ | h
  · obtain ⟨rfl, htail⟩ := List.cons.inj ht
    apply absurd _ (hc rfl)
    rw [← htail]
    rfl
  · exact h

theorem amps_infix_of_append {s : List Char} (hs : '&' ∉ s) (h : amps <:+: s ++ rest) :
    amps <:+: rest := by
  induction s with
  | nil => exact h
  | cons c s ih =>
    rw [List.mem_cons, not_or] at hs
    exact ih hs.2 (amps_infix_of_cons h fun hc => absurd hc.symm hs.1)

theorem pair_amp {c : Char} {t : Option Token} (h : pair c '&' = some t) :
    c = '&' ∧ t = some (.op .land) := by
  unfold pair at h
  split at h <;> simp_all

theorem isIdentChar_of_isIdentStart {c : Char} (h : isIdentStart c = true) :
    isIdentChar c = true := by
  rw [isIdentStart, Bool.or_eq_true] at h
  rw [isIdentChar, Char.isAlphanum, Bool.or_eq_true, Bool.or_eq_true]
  exact h.imp_left .inl

theorem isNumberChar_of_isDigit {c : Char} (h : c.isDigit = true) : isNumberChar c = true := by
  rw [isNumberChar, isIdentChar, Char.isAlphanum, h, Bool.or_true]
  rfl

theorem amps_infix_of_dropWhile {c : Char} {p : Char → Bool} (hp : p '&' = false)
    (hc : p c = true) (h : amps <:+: c :: cs) : amps <:+: cs.dropWhile p := by
  rw [← List.takeWhile_append_dropWhile (p := p) (l := cs), ← List.cons_append] at h
  apply amps_infix_of_append _ h
  rw [List.mem_cons, not_or]
  constructor
  · rintro rfl
    exact Bool.false_ne_true (hp.symm.trans hc)
  · intro hmem
    exact Bool.false_ne_true (hp.symm.trans (List.all_eq_true.mp List.all_takeWhile _ hmem))

theorem amps_infix_of_munch {c : Char} {t : Token} (hmunch : munch c cs = some (t, rest))
    (ht : t ≠ .op .land) (h : amps <:+: c :: cs) : amps <:+: rest := by
  rw [munch.eq_def] at hmunch
  by_cases hstart : isIdentStart c = true
  · rw [if_pos hstart] at hmunch
    rw [← (Prod.mk.inj (Option.some.inj hmunch)).2]
    exact amps_infix_of_dropWhile (by decide) (isIdentChar_of_isIdentStart hstart) h
  · rw [if_neg hstart] at hmunch
    by_cases hdigit : c.isDigit = true
    · rw [if_pos hdigit, Option.map_eq_some_iff] at hmunch
      obtain ⟨n, -, hrest⟩ := hmunch
      rw [← (Prod.mk.inj hrest).2]
      exact amps_infix_of_dropWhile (by decide) (isNumberChar_of_isDigit hdigit) h
    · rw [if_neg hdigit] at hmunch
      cases cs with
      | nil => exact absurd h.length_le (Nat.not_succ_le_self 1)
      | cons d cs =>
        cases hpair : pair c d with
        | none =>
          simp only [hpair, Option.map_eq_some_iff] at hmunch
          obtain ⟨_, -, hrest⟩ := hmunch
          rw [← (Prod.mk.inj hrest).2]
          apply amps_infix_of_cons h
          rintro rfl hd
          rw [Option.some_inj.mp hd] at hpair
          exact absurd hpair (by decide)
        | some o =>
          simp only [hpair, Option.map_eq_some_iff] at hmunch
          obtain ⟨_, rfl, hrest⟩ := hmunch
          obtain ⟨rfl, rfl⟩ := Prod.mk.inj hrest
          -- no pair but `&&` ends with an ampersand
          have hd : d ≠ '&' := by
            rintro rfl
            exact ht (Option.some_inj.mp (pair_amp hpair).2)
          have hfirst := amps_infix_of_cons h fun _ hhead => hd (Option.some_inj.mp hhead)
          exact amps_infix_of_cons hfirst fun hamp => absurd hamp hd

theorem amps_infix_of_lexFrom {n : Nat} (hlex : lexFrom n cs = some ts)
    (hts : .op .land ∉ ts) : ¬amps <:+: cs := by
  induction n generalizing cs ts with
  | zero =>
    cases cs with
    | nil => exact fun h => absurd h.length_le (by decide)
    | cons c cs => exact nomatch hlex
  | succ n ih =>
    cases cs with
    | nil => exact fun h => absurd h.length_le (by decide)
    | cons c cs =>
      rw [lexFrom] at hlex
      by_cases hblank : c = ' '
      · rw [if_pos hblank] at hlex
        intro h
        apply ih hlex hts
        apply amps_infix_of_cons h
        rintro rfl
        exact nomatch hblank
      · rw [if_neg hblank] at hlex
        obtain ⟨⟨t, rest⟩, hmunch, hlex⟩ := Option.bind_eq_some_iff.mp hlex
        obtain ⟨us, hrest, hus⟩ := Option.bind_eq_some_iff.mp hlex
        rw [← Option.some.inj hus, List.mem_cons, not_or] at hts
        exact fun h => ih hrest hts.2 (amps_infix_of_munch hmunch (Ne.symm hts.1) h)

end

end OpaeLibs.Lib.CLexer
