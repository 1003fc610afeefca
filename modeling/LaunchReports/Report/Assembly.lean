/-
The conditions and tables of a report, collected step by step.

Conditions come out in three sections: comparisons, then conditions that read a variable, then what links the tables.
Links and joins are kept once each, in the order of their first request. A side table is only marked as touched; at the
end each touched one adds its link and its join, unless they are there already.

`κ` is what conditions are and `τ` what tables are: structured ones when a report is compiled, plain text otherwise. A
`Vocabulary` says how the conditions and tables that the steps themselves bring in are expressed.
-/
import LaunchReports.Catalog.Dimension
import LaunchReports.Sql.Condition

namespace LaunchReports

structure Vocabulary (κ τ : Type) where
  condition : Condition → κ
  table : Table → τ

namespace Vocabulary

def structured : Vocabulary Condition Table := ⟨id, id⟩

def text : Vocabulary Fragment String := ⟨Condition.fragment, Table.name⟩

end Vocabulary

structure Assembly (κ τ : Type) where
  direct : List κ
  deferred : List κ
  linkage : List κ
  joins : List τ
  flashTouched : Bool
  javaTouched : Bool
deriving DecidableEq, Repr

/-- conditions and joined tables, ready for a statement -/
structure Assembled (κ τ : Type) where
  conditions : List κ
  joins : List τ
deriving DecidableEq, Repr

namespace Assembly

variable {κ τ : Type}

def empty : Assembly κ τ := ⟨[], [], [], [], false, false⟩

/-- `a` at the end, unless it is there -/
def addNew {α : Type} [DecidableEq α] (a : α) (items : List α) : List α :=
  if a ∈ items then items else items ++ [a]

/-! ## Collecting -/

def pushDirect (c : κ) (a : Assembly κ τ) : Assembly κ τ := { a with direct := a.direct ++ [c] }

def pushDeferred (c : κ) (a : Assembly κ τ) : Assembly κ τ := { a with deferred := a.deferred ++ [c] }

def requireJoin [DecidableEq τ] (t : τ) (a : Assembly κ τ) : Assembly κ τ := { a with joins := addNew t a.joins }

def requireLinkage [DecidableEq κ] (c : κ) (a : Assembly κ τ) : Assembly κ τ :=
  { a with linkage := addNew c a.linkage }

def touch (s : SideTable) (a : Assembly κ τ) : Assembly κ τ :=
  match s with
  | .flashInfo => { a with flashTouched := true }
  | .javaInfo => { a with javaTouched := true }

/-- the side table of a relation, if it is one -/
def touchTable (t : Table) (a : Assembly κ τ) : Assembly κ τ :=
  match t.side? with
  | some s => a.touch s
  | none => a

def touches (s : SideTable) (a : Assembly κ τ) : Bool :=
  match s with
  | .flashInfo => a.flashTouched
  | .javaInfo => a.javaTouched

/-- joins and links of a dimension, and its side table -/
def group [DecidableEq κ] [DecidableEq τ] (v : Vocabulary κ τ) (d : Dimension) (a : Assembly κ τ) : Assembly κ τ :=
  let joined := d.links.foldl (fun a l => a.requireJoin (v.table (.names l.target))) a
  let linked := d.links.foldl (fun a l => a.requireLinkage (v.condition l.condition)) joined
  match d.side with
  | some s => linked.touch s
  | none => linked

/-! ## Finishing -/

/-- the touched side tables -/
def sides (a : Assembly κ τ) : List SideTable := SideTable.all.filter fun s => a.touches s

/-- links and joins a side table to the session -/
def attach [DecidableEq κ] [DecidableEq τ] (v : Vocabulary κ τ) (a : Assembly κ τ) (s : SideTable) : Assembly κ τ :=
  (a.requireLinkage (v.condition (.belongs s))).requireJoin (v.table (.side s))

def finish [DecidableEq κ] [DecidableEq τ] (v : Vocabulary κ τ) (a : Assembly κ τ) : Assembled κ τ :=
  let whole := a.sides.foldl (attach v) a
  ⟨whole.direct ++ whole.deferred ++ whole.linkage, whole.joins⟩

/-! ## Histories -/

inductive Step (κ τ : Type) where
  | direct (c : κ)
  | deferred (c : κ)
  | join (t : τ)
  | linkage (c : κ)
  | touch (s : SideTable)
  | touchTable (t : Table)
  /-- group by a dimension or a field of this name; other names change nothing -/
  | group (name : String)
deriving DecidableEq, Repr

def step [DecidableEq κ] [DecidableEq τ] (v : Vocabulary κ τ) (a : Assembly κ τ) : Step κ τ → Assembly κ τ
  | .direct c => a.pushDirect c
  | .deferred c => a.pushDeferred c
  | .join t => a.requireJoin t
  | .linkage c => a.requireLinkage c
  | .touch s => a.touch s
  | .touchTable t => a.touchTable t
  | .group name =>
    match Dimension.grouping? name with
    | some d => a.group v d
    | none => a

def run [DecidableEq κ] [DecidableEq τ] (v : Vocabulary κ τ) (steps : List (Step κ τ)) : Assembly κ τ :=
  steps.foldl (step v) empty

end Assembly

end LaunchReports
