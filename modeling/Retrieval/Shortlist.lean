import Retrieval.Ranking

/-!
# Shortlists

A shortlist keeps the strongest of the documents that pass by, up to its capacity. It is a binary
heap with the weakest document at its first place, and below a place come the places twice as far on.
An undefined score makes the documents that are kept depend on their way through the heap.
-/

namespace Retrieval

/-- The documents kept, in the order of a heap. -/
abbrev Shortlist (ω : Type) := Array (Scored ω)

namespace Shortlist

variable {ω : Type} [Arithmetic ω]

/-- The document at one place is ranked before the document at another. -/
def precedesAt (list : Shortlist ω) (left right : Nat) : Bool :=
  match list[left]?, list[right]? with
  | some first, some second => first.precedes second
  | _, _ => false

/-- Moves the document at a place up, past the documents above it that are ranked before it. -/
def raise (list : Shortlist ω) (place : Nat) : Shortlist ω :=
  let above := (place - 1) / 2
  if _ : 0 < place ∧ list.precedesAt above place then
    raise (list.swapIfInBounds place above) above
  else list
termination_by place

/-- The place of the weaker document right below a place, among the first `size` places. -/
def weakerBelow? (list : Shortlist ω) (size place : Nat) :
    Option { below : Nat // place < below ∧ below < size } :=
  let left := 2 * place + 1
  if _ : left + 1 < size then
    if list.precedesAt (left + 1) left then some ⟨left, by omega⟩ else some ⟨left + 1, by omega⟩
  else if _ : left < size then some ⟨left, by omega⟩
  else none

/-- Moves the document at a place down, past the weaker documents below it, as long as it is ranked
before them. -/
def sink (list : Shortlist ω) (size place : Nat) : Shortlist ω :=
  match list.weakerBelow? size place with
  | none => list
  | some ⟨below, _⟩ =>
      if list.precedesAt place below then sink (list.swapIfInBounds place below) size below
      else list
termination_by size - place

/-- Moves the document at a place down to a place with none below, past the weaker documents, and up
again as far as it belongs. -/
def resettle (list : Shortlist ω) (size place : Nat) : Shortlist ω :=
  match list.weakerBelow? size place with
  | none => list.raise place
  | some ⟨below, _⟩ => resettle (list.swapIfInBounds place below) size below
termination_by size - place

/-- Adds a document. -/
def add (list : Shortlist ω) (scored : Scored ω) : Shortlist ω :=
  raise (list.push scored) list.size

/-- Drops the weakest document; the last one takes its place. -/
def dropWeakest (list : Shortlist ω) : Shortlist ω :=
  match list.back? with
  | none => list
  | some last => resettle (list.pop.setIfInBounds 0 last) list.pop.size 0

/-- Lets a document pass by. It is kept if there is room, or if it is ranked before the weakest
document, which then goes. -/
def offer (capacity : Nat) (list : Shortlist ω) (scored : Scored ω) : Shortlist ω :=
  if list.size < capacity then list.add scored
  else
    match list[0]? with
    | none => list
    | some weakest => if scored.precedes weakest then list.dropWeakest.add scored else list

/-- Brings the first `size` documents into their order: the weakest of them goes to the last place,
over and over. -/
def order : Nat → Shortlist ω → Shortlist ω
  | 0, list => list
  | size + 1, list => order size (sink (list.swapIfInBounds 0 size) size 0)

/-- The shortlist after all documents of a ranking have passed by. -/
def ofRanking (capacity : Nat) (ranking : Ranking ω) : Shortlist ω :=
  ranking.foldl (offer capacity) #[]

/-- The documents of a shortlist, the strongest first. -/
def toRanking (list : Shortlist ω) : Ranking ω :=
  (list.order list.size).toList

@[simp]
theorem size_raise (list : Shortlist ω) (place : Nat) : (list.raise place).size = list.size := by
  fun_induction raise list place <;> simp_all

@[simp]
theorem size_resettle (list : Shortlist ω) (size place : Nat) :
    (list.resettle size place).size = list.size := by
  fun_induction resettle list size place <;> simp_all

@[simp]
theorem size_add (list : Shortlist ω) (scored : Scored ω) :
    (list.add scored).size = list.size + 1 := by
  simp [add]

@[simp]
theorem size_dropWeakest (list : Shortlist ω) : list.dropWeakest.size = list.size - 1 := by
  unfold dropWeakest
  split
  · next none => simp_all
  · simp

theorem size_offer_le (capacity : Nat) (list : Shortlist ω) (scored : Scored ω)
    (room : list.size ≤ capacity) : (list.offer capacity scored).size ≤ capacity := by
  unfold offer
  split
  · simp
    omega
  · split
    · exact room
    · next weakest first =>
        have : 0 < list.size := (Array.getElem?_eq_some_iff.mp first).1
        split
        · simp
          omega
        · exact room

/-- A shortlist never outgrows its capacity. -/
theorem size_ofRanking_le (capacity : Nat) (ranking : Ranking ω) :
    (ofRanking capacity ranking).size ≤ capacity := by
  suffices ∀ list : Shortlist ω, list.size ≤ capacity →
      (ranking.foldl (offer capacity) list).size ≤ capacity from this #[] (Nat.zero_le _)
  induction ranking with
  | nil => exact fun _ room => room
  | cons scored later ih => exact fun list room => ih _ (size_offer_le capacity list scored room)

end Shortlist

/-- The strongest documents of a ranking, at most `count` of them, the stronger ones first. -/
def Ranking.strongest {ω : Type} [Arithmetic ω] (count : Nat) (ranking : Ranking ω) : Ranking ω :=
  (Shortlist.ofRanking count ranking).toRanking

end Retrieval
