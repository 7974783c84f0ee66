namespace BlockCanvas

theorem length_erase_lt {id : String} {ids : List String} (present : id ∈ ids) :
    (ids.erase id).length < ids.length := by
  have shorter := List.length_erase_of_mem present
  have nonempty := List.length_pos_of_mem present
  omega

abbrev Edge := String × String

structure EvaluationOrder where
  order : List String
  residue : List String
deriving DecidableEq

namespace EvaluationOrder

def isComplete (ordering : EvaluationOrder) : Bool := ordering.residue.isEmpty

def firsts : List String → List String
  | [] => []
  | id :: rest => id :: (firsts rest).filter fun other => other ≠ id

def lasts : List String → List String
  | [] => []
  | id :: rest => if id ∈ rest then lasts rest else id :: lasts rest

def targets (edges : List Edge) (id : String) : List String :=
  (edges.filter fun edge => edge.1 = id).map Prod.snd

def isFree (edges : List Edge) (waiting : List String) (id : String) : Bool :=
  edges.all fun edge => edge.2 ≠ id || edge.1 ∉ waiting

-- What placing a block sets free, in the order of the last edge that held each back.
def freed (edges : List Edge) (id : String) (waiting : List String) : List String :=
  (lasts (targets edges id)).filter (isFree edges waiting)

-- First in, first out: the head of the queue is placed and what it frees goes to the end.
def drain (edges : List Edge) (queue waiting : List String) : EvaluationOrder :=
  match queue with
  | [] => ⟨[], waiting⟩
  | id :: rest =>
      if present : id ∈ waiting then
        have : (waiting.erase id).length < waiting.length := length_erase_lt present
        let left := waiting.erase id
        let later := drain edges (rest ++ freed edges id left) left
        ⟨id :: later.order, later.residue⟩
      else drain edges rest waiting
termination_by (waiting.length, queue.length)

def known (ids : List String) (edges : List Edge) : List Edge :=
  edges.filter fun edge => edge.1 ∈ ids && edge.2 ∈ ids

def ofEdges (ids : List String) (edges : List Edge) : EvaluationOrder :=
  let nodes := firsts ids
  let links := known nodes edges
  drain links (nodes.filter (isFree links nodes)) nodes

end EvaluationOrder
end BlockCanvas
