import Mathlib.Algebra.Field.Defs
import Mathlib.Data.List.Basic
import Mathlib.Logic.Function.Basic
import Mathlib.Tactic.Common
/-!
# Arithmetic circuits

A template in the manner of circom: statements that hint at a signal, constrain signals, or do both,
over a field. A hint only tells the prover what to try, so it puts nothing on an accepted
assignment; the prover's own assignment (`generate`) runs all statements in order.
-/

namespace Circuit

variable {S F : Type*}

inductive Expr (S F : Type*)
  | signal (x : S)
  | const (c : F)
  | mul (e e' : Expr S F)
  | div (e e' : Expr S F)

/-- `x <-- e`, `e === e'`, `x <== e`, and the output of a component that is used as a function of
its inputs. -/
inductive Stmt (S F : Type*)
  | hint (x : S) (e : Expr S F)
  | constrain (e e' : Expr S F)
  | assign (x : S) (e : Expr S F)
  | component (f : List F → F) (inputs : List S) (out : S)

section Semantics

variable [Field F]

def Expr.eval (w : S → F) : Expr S F → F
  | .signal x => w x
  | .const c => c
  | .mul e e' => e.eval w * e'.eval w
  | .div e e' => e.eval w / e'.eval w

/-- What a statement demands of an assignment. -/
def Stmt.Holds (w : S → F) : Stmt S F → Prop
  | .hint _ _ => True
  | .constrain e e' => e.eval w = e'.eval w
  | .assign x e => w x = e.eval w
  | .component f inputs out => w out = f (inputs.map w)

/-- The assignment meets every constraint of the template. -/
def Satisfies (w : S → F) (template : List (Stmt S F)) : Prop := ∀ st ∈ template, st.Holds w

@[simp]
theorem satisfies_nil {w : S → F} : Satisfies w ([] : List (Stmt S F)) := by
  simp [Satisfies]

@[simp]
theorem satisfies_cons {w : S → F} {st : Stmt S F} {template : List (Stmt S F)} :
    Satisfies w (st :: template) ↔ st.Holds w ∧ Satisfies w template := by
  simp [Satisfies]

variable [DecidableEq S]

/-- What the prover assigns. -/
def Stmt.run (w : S → F) : Stmt S F → S → F
  | .hint x e => Function.update w x (e.eval w)
  | .constrain _ _ => w
  | .assign x e => Function.update w x (e.eval w)
  | .component f inputs out => Function.update w out (f (inputs.map w))

/-- The prover's assignment, from one of the input signals. -/
def generate (template : List (Stmt S F)) (w : S → F) : S → F := template.foldl Stmt.run w

end Semantics

end Circuit
