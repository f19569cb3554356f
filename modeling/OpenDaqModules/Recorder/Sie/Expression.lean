import OpenDaqModules.Library.Decimal
import OpenDaqModules.Recorder.Sie.Decoder
import OpenDaqModules.Recorder.Sie.Format

-- The text of the decoder language: an attribute is a number, or an expression in braces.
namespace Sie.Decoder

-- A name as the decoder language has it.
def text (bs : Bytes) : String :=
  String.ofList (bs.map fun b => Char.ofNat b.toNat)

inductive Token
  | number (n : ℕ)
  | var (name : Bytes)
  | plus
  | minus
  | times
  | opening
  | closing
  | openingBrace
  | closingBrace
  deriving DecidableEq, Repr

def isDigit (ch : UInt8) : Bool :=
  0x30 ≤ ch && ch ≤ 0x39

def isNameChar (ch : UInt8) : Bool :=
  isDigit ch || (0x41 ≤ ch && ch ≤ 0x5a) || (0x61 ≤ ch && ch ≤ 0x7a) || ch == 0x5f

def hexDigit? (ch : UInt8) : Option ℕ :=
  if isDigit ch then some (ch.toNat - 0x30)
  else if 0x41 ≤ ch && ch ≤ 0x46 then some (ch.toNat - 0x37)
  else if 0x61 ≤ ch && ch ≤ 0x66 then some (ch.toNat - 0x57)
  else none

-- The token that is being read. A number that starts with `0x` is hexadecimal.
inductive Pending
  | none
  | number (digits : Bytes)
  | hexadecimal (n : ℕ)
  | var (name : Bytes)

structure Scanner where
  tokens  : List Token := []
  pending : Pending    := .none

namespace Scanner

def flush (s : Scanner) : List Token :=
  match s.pending with
  | .none          => s.tokens
  | .number digits => s.tokens ++ [.number (Decimal.toNat digits)]
  | .hexadecimal n => s.tokens ++ [.number n]
  | .var name      => s.tokens ++ [.var name]

def symbol? : UInt8 → Option Token
  | 0x2b => some .plus
  | 0x2d => some .minus
  | 0x2a => some .times
  | 0x28 => some .opening
  | 0x29 => some .closing
  | 0x7b => some .openingBrace
  | 0x7d => some .closingBrace
  | _    => none

-- A character that is not a part of the pending token ends it.
def start (s : Scanner) (ch : UInt8) : Option Scanner :=
  if ch = 0x20 then some { tokens := s.flush }
  else if ch = 0x24 then some { tokens := s.flush, pending := .var [] }
  else if isDigit ch then some { tokens := s.flush, pending := .number [ch] }
  else (symbol? ch).map fun token => { tokens := s.flush ++ [token] }

def step (s : Scanner) (ch : UInt8) : Option Scanner :=
  match s.pending with
  | .none          => s.start ch
  | .number digits =>
    if isDigit ch then some { s with pending := .number (digits ++ [ch]) }
    else if digits = [0x30] ∧ ch = 0x78 then some { s with pending := .hexadecimal 0 }
    else s.start ch
  | .hexadecimal n =>
    match hexDigit? ch with
    | some digit => some { s with pending := .hexadecimal (16 * n + digit) }
    | none       => s.start ch
  | .var name      =>
    if isNameChar ch then some { s with pending := .var (name ++ [ch]) } else s.start ch

def run (s : Scanner) (bs : Bytes) : Option Scanner :=
  bs.foldlM step s

end Scanner

def tokens (bs : Bytes) : Option (List Token) :=
  (Scanner.run {} bs).map Scanner.flush

namespace Scanner

variable {s : Scanner} {bs bs' : Bytes} {n : ℕ}

theorem run_append : s.run (bs ++ bs') = (s.run bs).bind (·.run bs') :=
  List.foldlM_append

theorem isDigit_of_mem (h : ch ∈ Decimal.ofNat n) : isDigit ch = true := by
  have hch := Decimal.mem_ofNat h
  simpa [isDigit, UInt8.le_iff_toNat_le] using hch

theorem run_digits (digits : Bytes) (hbs : ∀ ch ∈ bs, isDigit ch = true) :
    run { s with pending := .number digits } bs = some { s with pending := .number (digits ++ bs) } := by
  induction bs generalizing digits
  case nil => simp [run]
  case cons ch bs ih =>
    have hch := hbs ch List.mem_cons_self
    have hstep : step { s with pending := .number digits } ch =
        some { s with pending := .number (digits ++ [ch]) } := by simp [step, hch]
    rw [run, List.foldlM_cons, hstep]
    refine (ih (digits ++ [ch]) fun b hb => hbs b (List.mem_cons_of_mem ch hb)).trans ?_
    rw [List.append_assoc, List.singleton_append]

theorem start_digit (hs : s.pending = .none) (hch : isDigit ch = true) :
    s.step ch = some { s with pending := .number [ch] } := by
  have hspace : ch ≠ 0x20 := fun h => absurd (h ▸ hch) (by decide)
  have hdollar : ch ≠ 0x24 := fun h => absurd (h ▸ hch) (by decide)
  simp [step, hs, start, hspace, hdollar, hch, flush]

theorem run_ofNat (hs : s.pending = .none) :
    s.run (Decimal.ofNat n) = some { s with pending := .number (Decimal.ofNat n) } := by
  have hdigits : ∀ ch ∈ Decimal.ofNat n, isDigit ch = true := fun ch => isDigit_of_mem
  have hne : Decimal.ofNat n ≠ [] := Decimal.ofNat_ne_nil
  obtain ⟨ch, digits, hcons⟩ := List.exists_cons_of_ne_nil hne
  rw [hcons] at hdigits ⊢
  rw [run, List.foldlM_cons, start_digit hs (hdigits ch List.mem_cons_self)]
  exact run_digits [ch] fun b hb => hdigits b (List.mem_cons_of_mem ch hb)

-- The sign and the digits of an integer are different tokens.
theorem run_ofInt (hs : s.pending = .none) (i : ℤ) :
    s.run (Decimal.ofInt i) = some {
      tokens  := s.tokens ++ if i < 0 then [.minus] else []
      pending := .number (Decimal.ofNat i.natAbs) } := by
  cases i
  case ofNat n =>
    rw [Decimal.ofInt, run_ofNat hs, if_neg (by simp), List.append_nil]
    rfl
  case negSucc n =>
    have hminus : s.step 0x2d = some { tokens := s.tokens ++ [.minus] } := by
      rw [step, hs]
      simp only [start, flush, hs]
      rfl
    rw [Decimal.ofInt, run, List.foldlM_cons, hminus, if_pos (Int.negSucc_lt_zero n)]
    exact run_ofNat rfl

end Scanner

theorem tokens_ofNat {n : ℕ} : tokens (Decimal.ofNat n) = some [.number n] := by
  rw [tokens, Scanner.run_ofNat rfl, Option.map_some]
  simp only [Scanner.flush, Decimal.toNat_ofNat, List.nil_append]

namespace Expr

mutual

def factor : ℕ → List Token → Option (Expr × List Token)
  | _ + 1, .number n :: ts => some (.num n, ts)
  | _ + 1, .var x :: ts    => some (.var (text x), ts)
  | fuel + 1, .minus :: ts => do
    let (e, ts) ← factor fuel ts
    return (.sub (.num 0) e, ts)
  | fuel + 1, .opening :: ts => do
    match ← sum fuel ts with
    | (e, .closing :: ts) => some (e, ts)
    | _                   => none
  | _, _ => none

def products : ℕ → Expr → List Token → Option (Expr × List Token)
  | fuel + 1, a, .times :: ts => do
    let (b, ts) ← factor fuel ts
    products fuel (.mul a b) ts
  | _, a, ts => some (a, ts)

def product : ℕ → List Token → Option (Expr × List Token)
  | 0, _         => none
  | fuel + 1, ts => do
    let (e, ts) ← factor fuel ts
    products fuel e ts

def sums : ℕ → Expr → List Token → Option (Expr × List Token)
  | fuel + 1, a, .plus :: ts  => do
    let (b, ts) ← product fuel ts
    sums fuel (.add a b) ts
  | fuel + 1, a, .minus :: ts => do
    let (b, ts) ← product fuel ts
    sums fuel (.sub a b) ts
  | _, a, ts => some (a, ts)

def sum : ℕ → List Token → Option (Expr × List Token)
  | 0, _         => none
  | fuel + 1, ts => do
    let (e, ts) ← product fuel ts
    sums fuel e ts

end

-- No token takes more than four levels of the grammar.
def ofTokens : List Token → Option Expr
  | [.number n]         => some (.num n)
  | [.minus, .number n] => some (.num (-n))
  | .openingBrace :: ts => do
    match ← sum (4 * ts.length) ts with
    | (e, [.closingBrace]) => some e
    | _                    => none
  | _ => none

def ofText (bs : Bytes) : Option Expr := do
  ofTokens (← tokens bs)

theorem ofText_ofNat {n : ℕ} : ofText (Decimal.ofNat n) = some (.num n) := by
  rw [ofText, tokens_ofNat]
  rfl

theorem ofText_ofInt {i : ℤ} : ofText (Decimal.ofInt i) = some (.num i) := by
  by_cases hi : i < 0
  case pos =>
    have htokens : tokens (Decimal.ofInt i) = some [.minus, .number i.natAbs] := by
      rw [tokens, Scanner.run_ofInt rfl, Option.map_some, if_pos hi]
      simp only [Scanner.flush, Decimal.toNat_ofNat, List.nil_append]
      rfl
    rw [ofText, htokens]
    refine congrArg (fun i => some (Expr.num i)) ?_
    omega
  case neg =>
    have htokens : tokens (Decimal.ofInt i) = some [.number i.natAbs] := by
      rw [tokens, Scanner.run_ofInt rfl, Option.map_some, if_neg hi]
      simp only [Scanner.flush, Decimal.toNat_ofNat, List.nil_append]
    rw [ofText, htokens]
    refine congrArg (fun i => some (Expr.num i)) ?_
    omega

example : ofText (str "\x7b$size - 2 * ($a + -3)\x7d") =
    some (.sub (.var "size") (.mul (.num 2) (.add (.var "a") (.sub (.num 0) (.num 3))))) := by
  decide +kernel

end Expr
end Sie.Decoder
