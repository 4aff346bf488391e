import LockPrefetch.Text.CombiningClass
import LockPrefetch.Text.Decomposition

/-! # Compatible text

Texts that stand for the same characters have one compatible form: every character is taken
apart, the marks behind a letter are put in the order of their classes, and each letter takes up
the marks that it has a character with. -/

set_option autoImplicit false

namespace LockPrefetch.Text

variable (kind : Nat → Nat) (pair? : Nat → Nat → Option Nat)

/-! ## The order of marks

`kind` gives the class of a code point. -/

/-- Puts a code point in front of ordered ones; a mark goes behind the marks of lower class. -/
def insertMark (code : Nat) : List Nat → List Nat
  | [] => [code]
  | next :: rest =>
    if kind next < kind code ∧ kind next ≠ 0 then next :: insertMark code rest
    else code :: next :: rest

/-- Code points with each run of marks in the order of the classes. -/
def inOrder : List Nat → List Nat
  | [] => []
  | code :: rest => insertMark kind code (inOrder rest)

/-! ## Putting together

`pair?` gives what a pair of code points is put together to. -/

/-- A code point with what it takes up of the code points behind it, and those that are left. A
mark is out of reach behind a mark of its class or a higher one, and everything is behind a code
point of class 0 that was not taken up. `last` is the class of the last mark passed over. -/
def takeUp (base last : Nat) : List Nat → Nat × List Nat
  | [] => (base, [])
  | code :: rest =>
    if last ≠ 0 ∧ kind code = 0 then (base, code :: rest)
    else if last ≠ 0 ∧ kind code ≤ last then
      let taken := takeUp base last rest
      (taken.1, code :: taken.2)
    else
      match pair? base code with
      | some whole => takeUp whole last rest
      | none =>
        if kind code = 0 then (base, code :: rest)
        else
          let taken := takeUp base (kind code) rest
          (taken.1, code :: taken.2)

theorem length_takeUp_le (base last : Nat) (codes : List Nat) :
    (takeUp kind pair? base last codes).2.length ≤ codes.length := by
  fun_induction takeUp with
  | case1 => exact Nat.le_refl _
  | case2 => exact Nat.le_refl _
  | case3 _ _ _ _ _ _ _ ih => exact Nat.succ_le_succ ih
  | case4 _ _ _ _ _ _ _ _ ih => exact Nat.le_succ_of_le ih
  | case5 => exact Nat.le_refl _
  | case6 _ _ _ _ _ _ _ _ _ ih => exact Nat.succ_le_succ ih

/-- Code points put together, each with what it can take up. -/
def compose : List Nat → List Nat
  | [] => []
  | code :: rest =>
    let taken := takeUp kind pair? code 0 rest
    taken.1 :: compose taken.2
termination_by codes => codes.length
decreasing_by exact Nat.lt_succ_of_le (length_takeUp_le kind pair? code 0 rest)

/-! ## The form -/

/-- The compatible form of a text. -/
def compatible (text : List Char) : List Char :=
  let codes := inOrder combiningClass (text.flatMap fun c => decompose c.toNat)
  (compose combiningClass pairUp? codes).map Char.ofNat

end LockPrefetch.Text
