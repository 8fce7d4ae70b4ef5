import Mathlib

namespace OpaeLibs.Lib.CGrammar

abbrev Name := List Char

/-- The binary operators of C but for assignments and the comma. -/
inductive BinOp
  | mul | div | mod
  | add | sub
  | shl | shr
  | lt | gt | le | ge
  | eq | ne
  | band | bxor | bor
  | land | lor
deriving DecidableEq

/-- The levels of the grammar, the loosest first. -/
def BinOp.prec : BinOp → Nat
  | .lor => 1
  | .land => 2
  | .bor => 3
  | .bxor => 4
  | .band => 5
  | .eq | .ne => 6
  | .lt | .gt | .le | .ge => 7
  | .shl | .shr => 8
  | .add | .sub => 9
  | .mul | .div | .mod => 10

abbrev castLevel : Nat := 11
abbrev unaryLevel : Nat := 12
abbrev postfixLevel : Nat := 13

inductive Token
  | ident (x : Name)
  | num (n : Nat)
  | op (o : BinOp)
  | bang
  | lparen
  | rparen
  | lbrack
  | rbrack
  | comma
  | dot
  | arrow
deriving DecidableEq

/-- The name of a type and the stars behind it. -/
structure TypeName where
  base : Name
  stars : Nat
deriving DecidableEq

/-- Expressions with the unary operators `!` and `&` and with the parentheses that are written. -/
inductive CExpr
  | ident (x : Name)
  | num (n : Nat)
  | paren (e : CExpr)
  | call (f : CExpr) (args : List CExpr)
  | index (e i : CExpr)
  | member (e : CExpr) (x : Name)
  | arrow (e : CExpr) (x : Name)
  | lnot (e : CExpr)
  | addr (e : CExpr)
  | cast (t : TypeName) (e : CExpr)
  | binary (o : BinOp) (l r : CExpr)

def TypeName.tokens (t : TypeName) : List Token :=
  .ident t.base :: List.replicate t.stars (.op .mul)

mutual

def print : CExpr → List Token
  | .ident x => [.ident x]
  | .num n => [.num n]
  | .paren e => .lparen :: (print e ++ [.rparen])
  | .call f args => print f ++ .lparen :: ((printRest args).tail ++ [.rparen])
  | .index e i => print e ++ .lbrack :: (print i ++ [.rbrack])
  | .member e x => print e ++ [.dot, .ident x]
  | .arrow e x => print e ++ [.arrow, .ident x]
  | .lnot e => .bang :: print e
  | .addr e => .op .band :: print e
  | .cast t e => .lparen :: (t.tokens ++ [.rparen]) ++ print e
  | .binary o l r => print l ++ .op o :: print r

/-- Expressions with a comma before each. -/
def printRest : List CExpr → List Token
  | [] => []
  | e :: es => .comma :: print e ++ printRest es

end

mutual

def strip : CExpr → CExpr
  | .ident x => .ident x
  | .num n => .num n
  | .paren e => strip e
  | .call f args => .call (strip f) (stripAll args)
  | .index e i => .index (strip e) (strip i)
  | .member e x => .member (strip e) x
  | .arrow e x => .arrow (strip e) x
  | .lnot e => .lnot (strip e)
  | .addr e => .addr (strip e)
  | .cast t e => .cast t (strip e)
  | .binary o l r => .binary o (strip l) (strip r)

def stripAll : List CExpr → List CExpr
  | [] => []
  | e :: es => strip e :: stripAll es

end

/-- What a name stands for where an expression is read. -/
inductive NameKind
  | value
  | type
  | keyword
deriving DecidableEq

section Grammar

variable (kind : Name → NameKind)

mutual

/-- Whether the grammar admits an expression where it asks for one of a level. -/
def AtLevel : Nat → CExpr → Prop
  | _, .ident x => kind x = .value
  | _, .num _ => True
  | _, .paren e => AtLevel 0 e
  | l, .call f args => l ≤ postfixLevel ∧ AtLevel postfixLevel f ∧ AllAtLevel args
  | l, .index e i => l ≤ postfixLevel ∧ AtLevel postfixLevel e ∧ AtLevel 0 i
  | l, .member e x => l ≤ postfixLevel ∧ AtLevel postfixLevel e ∧ kind x ≠ .keyword
  | l, .arrow e x => l ≤ postfixLevel ∧ AtLevel postfixLevel e ∧ kind x ≠ .keyword
  | l, .lnot e => l ≤ unaryLevel ∧ AtLevel castLevel e
  | l, .addr e => l ≤ unaryLevel ∧ AtLevel castLevel e
  | l, .cast t e => l ≤ castLevel ∧ kind t.base = .type ∧ AtLevel castLevel e
  | l, .binary o a b => l ≤ o.prec ∧ AtLevel o.prec a ∧ AtLevel (o.prec + 1) b

def AllAtLevel : List CExpr → Prop
  | [] => True
  | e :: es => AtLevel 0 e ∧ AllAtLevel es

end

/-- Tokens are read as a tree of operations by C's grammar. -/
def Parses (ts : List Token) (t : CExpr) : Prop :=
  ∃ e, print e = ts ∧ AtLevel kind 0 e ∧ strip e = t

end Grammar

section Parentheses

/-- Parentheses that close what they open. -/
structure Dyck (w : List Token) : Prop where
  balanced : w.count .lparen = w.count .rparen
  le : ∀ p q, w = p ++ q → p.count .rparen ≤ p.count .lparen

def isWord (t : Token) : Bool := t != .lparen && t != .rparen

theorem count_of_isWord {t : Token} (h : isWord t = true) :
    [t].count .lparen = 0 ∧ [t].count .rparen = 0 := by
  cases t <;> simp_all [isWord]

theorem dyck_nil : Dyck [] := by
  refine ⟨rfl, fun p q h => ?_⟩
  rw [(List.append_eq_nil_iff.mp h.symm).1]
  exact Nat.le_refl _

theorem dyck_word {t : Token} (h : isWord t = true) : Dyck [t] := by
  obtain ⟨hopen, hclose⟩ := count_of_isWord h
  refine ⟨hopen.trans hclose.symm, fun p q hsplit => ?_⟩
  have hle : p.count .rparen ≤ [t].count .rparen := by
    rw [hsplit, List.count_append]
    exact Nat.le_add_right ..
  omega

theorem Dyck.append {u v : List Token} (hu : Dyck u) (hv : Dyck v) : Dyck (u ++ v) := by
  constructor
  · rw [List.count_append, List.count_append, hu.balanced, hv.balanced]
  · intro p q h
    rcases List.append_eq_append_iff.mp h with ⟨m, rfl, hm⟩ | ⟨m, hm, -⟩
    · rw [List.count_append, List.count_append, hu.balanced]
      exact Nat.add_le_add_left (hv.le m q hm) _
    · exact hu.le p m hm

theorem Dyck.cons {t : Token} {w : List Token} (ht : isWord t = true) (hw : Dyck w) :
    Dyck (t :: w) := (dyck_word ht).append hw

/-- What opens a parenthesis at its beginning and closes it at its end is not split by what is
balanced before. -/
theorem Dyck.not_split {w p q : List Token} (hw : Dyck w)
    (hp : p.count .lparen = p.count .rparen) (hne : p ≠ []) (hq : q ≠ []) :
    p ++ q ≠ .lparen :: (w ++ [.rparen]) := by
  intro h
  obtain ⟨t, p, rfl⟩ := List.exists_cons_of_ne_nil hne
  obtain ⟨q, x, rfl⟩ := List.eq_nil_or_concat q |>.resolve_left hq
  rw [List.cons_append, List.cons.injEq, List.concat_eq_append, ← List.append_assoc] at h
  obtain ⟨rfl, h⟩ := h
  have hle := hw.le p q (List.append_inj_left' h rfl).symm
  simp only [List.count_cons_self, List.count_cons_of_ne (by decide : Token.lparen ≠ .rparen)] at hp
  omega

theorem Dyck.paren {w : List Token} (hw : Dyck w) : Dyck (.lparen :: (w ++ [.rparen])) := by
  have hbalanced : (Token.lparen :: (w ++ [.rparen])).count .lparen =
      (Token.lparen :: (w ++ [.rparen])).count .rparen := by
    simp [hw.balanced]
  refine ⟨hbalanced, fun p q h => ?_⟩
  rcases List.eq_nil_or_concat q with rfl | ⟨q, x, rfl⟩
  · rw [List.append_nil] at h
    exact h ▸ Nat.le_of_eq hbalanced.symm
  · cases p with
    | nil => exact Nat.le_refl _
    | cons t p =>
      rw [List.cons_append, List.cons.injEq, List.concat_eq_append, ← List.append_assoc] at h
      obtain ⟨rfl, h⟩ := h
      have hle := hw.le p q (List.append_inj_left' h rfl)
      simp only [List.count_cons_self,
        List.count_cons_of_ne (by decide : Token.lparen ≠ .rparen)]
      omega

theorem Dyck.group_inj {p p' w w' : List Token} (hw : Dyck w) (hw' : Dyck w')
    (h : p ++ .lparen :: (w ++ [.rparen]) = p' ++ .lparen :: (w' ++ [.rparen])) :
    p = p' ∧ w = w' := by
  have hnil {m u v : List Token} (hu : Dyck u) (hv : Dyck v)
      (hm : Token.lparen :: (u ++ [.rparen]) = m ++ .lparen :: (v ++ [.rparen])) : m = [] := by
    by_contra hne
    have hcount := hu.paren.balanced
    rw [hm, List.count_append, List.count_append, hv.paren.balanced] at hcount
    exact hu.not_split (Nat.add_right_cancel hcount) hne (List.cons_ne_nil _ _) hm.symm
  have hp : p = p' := by
    rcases List.append_eq_append_iff.mp h with ⟨m, rfl, hm⟩ | ⟨m, rfl, hm⟩
    · rw [hnil hw hw' hm, List.append_nil]
    · rw [hnil hw' hw hm, List.append_nil]
  refine ⟨hp, ?_⟩
  rw [hp, List.append_cancel_left_eq, List.cons.injEq] at h
  exact List.append_inj_left' h.2 rfl

end Parentheses

section Trees

theorem dyck_tokens (t : TypeName) : Dyck t.tokens := by
  refine Dyck.cons rfl ?_
  induction t.stars with
  | zero => exact dyck_nil
  | succ n ih => exact Dyck.cons rfl ih

theorem print_ne_nil (e : CExpr) : print e ≠ [] := by
  cases e <;> simp [print]

mutual

theorem dyck_print : (e : CExpr) → Dyck (print e)
  | .ident _ => dyck_word rfl
  | .num _ => dyck_word rfl
  | .paren e => (dyck_print e).paren
  | .call f args => (dyck_print f).append (dyck_printArgs args).paren
  | .index e i => (dyck_print e).append (.cons rfl ((dyck_print i).append (dyck_word rfl)))
  | .member e _ => (dyck_print e).append (.cons rfl (dyck_word rfl))
  | .arrow e _ => (dyck_print e).append (.cons rfl (dyck_word rfl))
  | .lnot e => .cons rfl (dyck_print e)
  | .addr e => .cons rfl (dyck_print e)
  | .cast t e => (dyck_tokens t).paren.append (dyck_print e)
  | .binary _ l r => (dyck_print l).append (.cons rfl (dyck_print r))

theorem dyck_printArgs : (es : List CExpr) → Dyck (printRest es).tail
  | [] => dyck_nil
  | e :: es => (dyck_print e).append (dyck_printRest es)

theorem dyck_printRest : (es : List CExpr) → Dyck (printRest es)
  | [] => dyck_nil
  | e :: es => .append (.cons rfl (dyck_print e)) (dyck_printRest es)

end

/-- Only what is written as a whole in parentheses opens one at its beginning and closes it at its
end. -/
theorem print_ne_paren {e : CExpr} (he : ∀ e', e ≠ .paren e') {w : List Token} (hw : Dyck w) :
    print e ≠ .lparen :: (w ++ [.rparen]) := by
  cases e with
  | ident x => exact fun h => nomatch (List.cons.inj h).1
  | num n => exact fun h => nomatch (List.cons.inj h).1
  | paren e => exact absurd rfl (he e)
  | call f args =>
    exact hw.not_split (dyck_print f).balanced (print_ne_nil f) (List.cons_ne_nil _ _)
  | index e i =>
    exact hw.not_split (dyck_print e).balanced (print_ne_nil e) (List.cons_ne_nil _ _)
  | member e x =>
    exact hw.not_split (dyck_print e).balanced (print_ne_nil e) (List.cons_ne_nil _ _)
  | arrow e x =>
    exact hw.not_split (dyck_print e).balanced (print_ne_nil e) (List.cons_ne_nil _ _)
  | lnot e => exact fun h => nomatch (List.cons.inj h).1
  | addr e => exact fun h => nomatch (List.cons.inj h).1
  | cast t e =>
    exact hw.not_split (dyck_tokens t).paren.balanced (List.cons_ne_nil _ _) (print_ne_nil e)
  | binary o l r =>
    exact hw.not_split (dyck_print l).balanced (print_ne_nil l) (List.cons_ne_nil _ _)

section

variable {φ : Token → Bool}

mutual

theorem countP_strip (hopen : φ .lparen = false) (hclose : φ .rparen = false) :
    (e : CExpr) → (print (strip e)).countP φ = (print e).countP φ
  | .ident _ => rfl
  | .num _ => rfl
  | .paren e => (countP_strip hopen hclose e).trans (by simp [print, hopen, hclose])
  | .call f args => by
    simp only [strip, print, List.countP_append, List.countP_cons, countP_strip hopen hclose f,
      countP_stripAll hopen hclose args]
  | .index e i => by
    simp only [strip, print, List.countP_append, List.countP_cons, countP_strip hopen hclose e,
      countP_strip hopen hclose i]
  | .member e _ => by simp only [strip, print, List.countP_append, countP_strip hopen hclose e]
  | .arrow e _ => by simp only [strip, print, List.countP_append, countP_strip hopen hclose e]
  | .lnot e => by simp only [strip, print, List.countP_cons, countP_strip hopen hclose e]
  | .addr e => by simp only [strip, print, List.countP_cons, countP_strip hopen hclose e]
  | .cast _ e => by simp only [strip, print, List.countP_append, countP_strip hopen hclose e]
  | .binary _ l r => by
    simp only [strip, print, List.countP_append, List.countP_cons, countP_strip hopen hclose l,
      countP_strip hopen hclose r]

theorem countP_stripAll (hopen : φ .lparen = false) (hclose : φ .rparen = false) :
    (es : List CExpr) → (printRest (stripAll es)).tail.countP φ = (printRest es).tail.countP φ
  | [] => rfl
  | e :: es => by
    simp only [stripAll, printRest, List.cons_append, List.tail_cons, List.countP_append,
      countP_strip hopen hclose e, countP_stripRest hopen hclose es]

theorem countP_stripRest (hopen : φ .lparen = false) (hclose : φ .rparen = false) :
    (es : List CExpr) → (printRest (stripAll es)).countP φ = (printRest es).countP φ
  | [] => rfl
  | e :: es => by
    simp only [stripAll, printRest, List.countP_append, List.countP_cons,
      countP_strip hopen hclose e, countP_stripRest hopen hclose es]

end

end

def words (ts : List Token) : Nat := ts.countP isWord

theorem words_cons (t : Token) (ts : List Token) :
    words (t :: ts) = words ts + if isWord t then 1 else 0 := List.countP_cons

theorem mem_print_strip {t : Token} (ht : isWord t = true) {e : CExpr} :
    t ∈ print (strip e) ↔ t ∈ print e := by
  have hparen {u : Token} (hu : isWord u = false) : (u == t) = false := by
    rw [beq_eq_false_iff_ne]
    rintro rfl
    exact Bool.false_ne_true (hu.symm.trans ht)
  rw [← List.count_pos_iff, ← List.count_pos_iff, List.count_eq_countP, List.count_eq_countP,
    countP_strip (hparen rfl) (hparen rfl)]

theorem words_eq {e e' : CExpr} (h : strip e = strip e') : words (print e) = words (print e') := by
  rw [words, words, ← countP_strip rfl rfl, h, countP_strip rfl rfl]

theorem split_words {p p' q q' : List Token} {t t' : Token} (ht : isWord t = true)
    (ht' : isWord t' = true) (hwords : words p = words p') (h : p ++ t :: q = p' ++ t' :: q') :
    p = p' ∧ t = t' ∧ q = q' := by
  induction p generalizing p' with
  | nil =>
    cases p' with
    | nil => exact ⟨rfl, List.cons.inj h⟩
    | cons x p' =>
      obtain ⟨rfl, -⟩ := List.cons.inj h
      rw [words_cons, if_pos ht] at hwords
      exact absurd hwords (Nat.succ_ne_zero _).symm
  | cons x p ih =>
    cases p' with
    | nil =>
      obtain ⟨rfl, -⟩ := List.cons.inj h
      rw [words_cons, if_pos ht'] at hwords
      exact absurd hwords (Nat.succ_ne_zero _)
    | cons y p' =>
      obtain ⟨rfl, htail⟩ := List.cons.inj h
      rw [words_cons, words_cons] at hwords
      obtain ⟨rfl, rest⟩ := ih (Nat.add_right_cancel hwords) htail
      exact ⟨rfl, rest⟩

theorem split_rest {e e' : CExpr} {es es' : List CExpr} (he : strip e = strip e')
    (hes : stripAll es = stripAll es')
    (h : print e ++ printRest es = print e' ++ printRest es') :
    print e = print e' ∧ printRest es = printRest es' := by
  cases es with
  | nil =>
    cases es' with
    | nil =>
      rw [printRest, List.append_nil, List.append_nil] at h
      exact ⟨h, rfl⟩
    | cons _ _ => exact nomatch hes
  | cons e₁ es =>
    cases es' with
    | nil => exact nomatch hes
    | cons e₁' es' =>
      obtain ⟨hprint, -, hrest⟩ := split_words rfl rfl (words_eq he) h
      exact ⟨hprint, congrArg (Token.comma :: ·) hrest⟩

mutual

theorem eq_of_print : (e e' : CExpr) → print e = print e' → strip e = strip e' → e = e'
  | .paren e, e', hprint, hstrip => by
    cases e' with
    | paren e' =>
      rw [eq_of_print e e' (List.append_inj_left' (List.cons.inj hprint).2 rfl) hstrip]
    | _ => exact absurd hprint.symm (print_ne_paren (by rintro _ ⟨⟩) (dyck_print e))
  | .ident x, e', hprint, hstrip => by
    cases e' with
    | paren e' => exact absurd hprint (print_ne_paren (by rintro _ ⟨⟩) (dyck_print e'))
    | _ => simp_all [strip]
  | .num n, e', hprint, hstrip => by
    cases e' with
    | paren e' => exact absurd hprint (print_ne_paren (by rintro _ ⟨⟩) (dyck_print e'))
    | _ => simp_all [strip]
  | .call f args, e', hprint, hstrip => by
    cases e' with
    | paren e' => exact absurd hprint (print_ne_paren (by rintro _ ⟨⟩) (dyck_print e'))
    | call f' args' =>
      obtain ⟨hf, hargs⟩ := CExpr.call.inj hstrip
      obtain ⟨hprintf, hprintargs⟩ := (dyck_printArgs args).group_inj (dyck_printArgs args') hprint
      rw [eq_of_print f f' hprintf hf, eqs_of_printArgs args args' hprintargs hargs]
    | _ => simp [strip] at hstrip
  | .index e i, e', hprint, hstrip => by
    cases e' with
    | paren e' => exact absurd hprint (print_ne_paren (by rintro _ ⟨⟩) (dyck_print e'))
    | index e' i' =>
      obtain ⟨he, hi⟩ := CExpr.index.inj hstrip
      obtain ⟨hprinte, -, hrest⟩ := split_words rfl rfl (words_eq he) hprint
      rw [eq_of_print e e' hprinte he, eq_of_print i i' (List.append_inj_left' hrest rfl) hi]
    | _ => simp [strip] at hstrip
  | .member e x, e', hprint, hstrip => by
    cases e' with
    | paren e' => exact absurd hprint (print_ne_paren (by rintro _ ⟨⟩) (dyck_print e'))
    | member e' x' =>
      obtain ⟨he, rfl⟩ := CExpr.member.inj hstrip
      rw [eq_of_print e e' (List.append_inj_left' hprint rfl) he]
    | _ => simp [strip] at hstrip
  | .arrow e x, e', hprint, hstrip => by
    cases e' with
    | paren e' => exact absurd hprint (print_ne_paren (by rintro _ ⟨⟩) (dyck_print e'))
    | arrow e' x' =>
      obtain ⟨he, rfl⟩ := CExpr.arrow.inj hstrip
      rw [eq_of_print e e' (List.append_inj_left' hprint rfl) he]
    | _ => simp [strip] at hstrip
  | .lnot e, e', hprint, hstrip => by
    cases e' with
    | paren e' => exact absurd hprint (print_ne_paren (by rintro _ ⟨⟩) (dyck_print e'))
    | lnot e' =>
      rw [eq_of_print e e' (List.cons.inj hprint).2 (CExpr.lnot.inj hstrip)]
    | _ => simp [strip] at hstrip
  | .addr e, e', hprint, hstrip => by
    cases e' with
    | paren e' => exact absurd hprint (print_ne_paren (by rintro _ ⟨⟩) (dyck_print e'))
    | addr e' =>
      rw [eq_of_print e e' (List.cons.inj hprint).2 (CExpr.addr.inj hstrip)]
    | _ => simp [strip] at hstrip
  | .cast t e, e', hprint, hstrip => by
    cases e' with
    | paren e' => exact absurd hprint (print_ne_paren (by rintro _ ⟨⟩) (dyck_print e'))
    | cast t' e' =>
      obtain ⟨rfl, he⟩ := CExpr.cast.inj hstrip
      rw [eq_of_print e e' (List.append_cancel_left hprint) he]
    | _ => simp [strip] at hstrip
  | .binary o l r, e', hprint, hstrip => by
    cases e' with
    | paren e' => exact absurd hprint (print_ne_paren (by rintro _ ⟨⟩) (dyck_print e'))
    | binary o' l' r' =>
      obtain ⟨-, hl, hr⟩ := CExpr.binary.inj hstrip
      obtain ⟨hprintl, ho, hprintr⟩ := split_words rfl rfl (words_eq hl) hprint
      rw [Token.op.inj ho, eq_of_print l l' hprintl hl, eq_of_print r r' hprintr hr]
    | _ => simp [strip] at hstrip

theorem eqs_of_printArgs : (es es' : List CExpr) → (printRest es).tail = (printRest es').tail →
    stripAll es = stripAll es' → es = es'
  | [], [], _, _ => rfl
  | [], _ :: _, _, hstrip => nomatch hstrip
  | _ :: _, [], _, hstrip => nomatch hstrip
  | e :: es, e' :: es', hprint, hstrip => by
    obtain ⟨he, hes⟩ := List.cons.inj hstrip
    obtain ⟨hprinte, hprintes⟩ := split_rest he hes hprint
    rw [eq_of_print e e' hprinte he, eqs_of_printRest es es' hprintes hes]

theorem eqs_of_printRest : (es es' : List CExpr) → printRest es = printRest es' →
    stripAll es = stripAll es' → es = es'
  | [], [], _, _ => rfl
  | [], _ :: _, _, hstrip => nomatch hstrip
  | _ :: _, [], _, hstrip => nomatch hstrip
  | e :: es, e' :: es', hprint, hstrip => by
    obtain ⟨he, hes⟩ := List.cons.inj hstrip
    obtain ⟨hprinte, hprintes⟩ := split_rest he hes (List.cons.inj hprint).2
    rw [eq_of_print e e' hprinte he, eqs_of_printRest es es' hprintes hes]

end

end Trees

end OpaeLibs.Lib.CGrammar
