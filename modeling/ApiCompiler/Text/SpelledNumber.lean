/-!
Numbers spelled out in English. The largest scale word is used again on heads that need it, so
every number has a name.
-/

namespace ApiCompiler.Text

def ones : List String :=
  ["zero", "one", "two", "three", "four", "five", "six", "seven", "eight", "nine", "ten",
    "eleven", "twelve", "thirteen", "fourteen", "fifteen", "sixteen", "seventeen", "eighteen",
    "nineteen"]

def tens : List String :=
  ["", "", "twenty", "thirty", "forty", "fifty", "sixty", "seventy", "eighty", "ninety"]

def named (names : List String) (i : Nat) : String :=
  (names[i]?).getD ""

/-- The powers of ten with a word of their own from a thousand on, the largest first. -/
def scales : List (Nat × String) :=
  [(Nat.pow 10 12, "trillion"), (Nat.pow 10 9, "billion"), (Nat.pow 10 6, "million"),
    (Nat.pow 10 3, "thousand")]

def scale? (n : Nat) : Option (Nat × String) :=
  scales.find? fun scale => scale.1 ≤ n

theorem isSome_scale? {n : Nat} (large : 1000 ≤ n) : (scale? n).isSome = true := by
  rw [scale?, List.find?_isSome]
  exact ⟨(Nat.pow 10 3, "thousand"), by simp [scales], decide_eq_true large⟩

def scale (n : Nat) (large : 1000 ≤ n) : Nat × String :=
  (scale? n).get (isSome_scale? large)

section Scale

variable {n : Nat} (large : 1000 ≤ n)

theorem scale?_eq_some : scale? n = some (scale n large) :=
  (Option.some_get (isSome_scale? large)).symm

theorem scale_mem : scale n large ∈ scales :=
  List.mem_of_find?_eq_some (scale?_eq_some large)

theorem scale_le : (scale n large).1 ≤ n := by
  have accepted := List.find?_some (scale?_eq_some large)
  exact of_decide_eq_true accepted

theorem one_lt_scale : 1 < (scale n large).1 := by
  have all : ∀ scale ∈ scales, 1 < scale.1 := by decide
  exact all _ (scale_mem large)

theorem scale_pos : 0 < (scale n large).1 :=
  Nat.lt_trans Nat.zero_lt_one (one_lt_scale large)

end Scale

/-- The English name of a natural number. -/
def spellNat (n : Nat) : String :=
  if n < 20 then named ones n
  else if n < 100 then
    if n % 10 = 0 then named tens (n / 10)
    else named tens (n / 10) ++ "-" ++ named ones (n % 10)
  else if small : n < 1000 then
    let spelled := named ones (n / 100) ++ " hundred"
    if n % 100 = 0 then spelled else spelled ++ " " ++ spellNat (n % 100)
  else
    let scale := scale n (Nat.le_of_not_lt small)
    let spelled := spellNat (n / scale.1) ++ " " ++ scale.2
    if n % scale.1 = 0 then spelled else spelled ++ " " ++ spellNat (n % scale.1)
termination_by n
decreasing_by
  · omega
  · exact Nat.div_lt_self (by omega) (one_lt_scale _)
  · exact Nat.lt_of_lt_of_le (Nat.mod_lt n (scale_pos _)) (scale_le _)

def spellInt : Int → String
  | .ofNat n => spellNat n
  | .negSucc n => "minus " ++ spellNat (n + 1)

end ApiCompiler.Text
