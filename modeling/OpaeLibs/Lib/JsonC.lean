import OpaeLibs.Lib.CStrings

namespace OpaeLibs.Lib.JsonC

open OpaeLibs.Lib.CStrings

/-- An object of json-c, of which `NULL` is `null`; `δ` stands for its floating-point numbers. The
keys of an object are different, and strings can hold a `NUL`. -/
inductive Json (δ : Type)
  | null
  | boolean (b : Bool)
  | int (n : Int)
  | double (d : δ)
  | string (s : List UInt8)
  | array (elems : List (Json δ))
  | object (fields : List (CString × Json δ))

inductive Format
  | plain
  | spaced

/-- What C reads of bytes with a terminator behind them. -/
def cText (s : List UInt8) : CString :=
  ⟨s.takeWhile (· ≠ 0), fun h => by simpa using List.mem_takeWhile_imp h⟩

variable {δ : Type}

namespace Json

def objectGetEx (key : CString) : Json δ → Option (Json δ)
  | object fields => fields.lookup key
  | _ => none

def isObject : Json δ → Bool
  | object _ => true
  | _ => false

def arrayGetIdx (i : Nat) : Json δ → Json δ
  | array elems => elems.getD i null
  | _ => null

/-- An integer as one of 32 bits, the nearest one. -/
def clampInt (n : Int) : Int := max (-2 ^ 31) (min n (2 ^ 31 - 1))

def getStringLen : Json δ → Nat
  | string s => s.length
  | _ => 0

end Json

/-- The library. `write` gives `NULL` where there is no memory, and a text with more than `INT_MAX`
bytes is not parsed, so that no array of it has more elements. -/
structure JsonLib (δ : Type) where
  nonzero : δ → Bool
  write : Format → Json δ → Option CString
  tokenerParse : List UInt8 → Option (Json δ)
  arrayLength_lt : ∀ text root key l, tokenerParse text = some root →
    root.objectGetEx key = some (.array l) → l.length < 2 ^ 31

namespace JsonLib

variable (json : JsonLib δ)

/-- The bytes of a string, with a terminator behind them that is not shown, or how anything else is
written. -/
def getString : Json δ → Option (List UInt8)
  | .null => none
  | .string s => some s
  | j => (json.write .spaced j).map Subtype.val

def getBoolean : Json δ → Bool
  | .boolean b => b
  | .int n => n ≠ 0
  | .double d => json.nonzero d
  | .string s => s ≠ []
  | _ => false

end JsonLib

theorem cText_of_notMem {s : List UInt8} (h : 0 ∉ s) : (cText s).val = s := by
  rw [cText, List.takeWhile_eq_self_iff]
  intro b hb
  rw [decide_eq_true_eq]
  rintro rfl
  exact h hb

end OpaeLibs.Lib.JsonC
