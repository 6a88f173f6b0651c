/-!
# Heaps

A heap is a binary tree in which nothing comes before what stands above it.  The places of the tree
are filled level by level, from left to right.

* `Heap.insertAt`: takes something in at the end of a way; it rises as long as it comes before what
  stands above it.
* `Heap.pop?`: takes out the top.  The last place is emptied, and what stood there takes the place
  of the top: it first goes down to the bottom, on the side of what comes first (on the right side if
  neither does), and then rises.
* `toList_insertAt`, `toList_pop?`: nothing is lost and nothing is added.
* `Ordered`: nothing comes before what stands above it.  `ordered_insertAt` and `ordered_pop?` keep a
  heap in order, and of a heap in order `pop?_least` takes out something that nothing else comes
  before.
-/

namespace FleetMatch

/-- A binary tree. -/
inductive Heap (α : Type) where
  | empty
  | node (top : α) (left right : Heap α)

namespace Heap

variable {α : Type}

/-- What stands at the top. -/
def top? : Heap α → Option α
  | .empty => none
  | .node v _ _ => some v

/-- All that stands in the tree, the top first. -/
def toList : Heap α → List α
  | .empty => []
  | .node v l r => v :: (l.toList ++ r.toList)

/-- The way from the top to a place: `true` is a step to the right.  The places are counted from
one, level by level. -/
def way (place : Nat) : List Bool :=
  if place ≤ 1 then [] else way (place / 2) ++ [place % 2 == 1]

variable (before : α → α → Bool)

/-- Two trees under `v`.  The top of the left one changes places with `v` if it comes before it. -/
def joinLeft (v : α) (l r : Heap α) : Heap α :=
  match l with
  | .empty => .node v .empty r
  | .node w ll lr => if before w v then .node w (.node v ll lr) r else .node v (.node w ll lr) r

/-- Two trees under `v`.  The top of the right one changes places with `v` if it comes before it. -/
def joinRight (v : α) (l r : Heap α) : Heap α :=
  match r with
  | .empty => .node v l .empty
  | .node w rl rr => if before w v then .node w l (.node v rl rr) else .node v l (.node w rl rr)

/-- Takes `x` in at the end of a way. -/
def insertAt (x : α) (steps : List Bool) : Heap α → Heap α
  | .empty => .node x .empty .empty
  | .node v l r =>
    if steps.headD false then joinRight before v l (insertAt x steps.tail r)
    else joinLeft before v (insertAt x steps.tail l) r

/-- Takes out what stands at the end of a way.  Where the way leaves the tree, the other side is
taken. -/
def takeAt (steps : List Bool) : Heap α → Option (α × Heap α)
  | .empty => none
  | .node v l r =>
    if steps.headD false then
      match takeAt steps.tail r with
      | some (x, rest) => some (x, .node v l rest)
      | none =>
        match takeAt steps.tail l with
        | some (x, rest) => some (x, .node v rest r)
        | none => some (v, .empty)
    else
      match takeAt steps.tail l with
      | some (x, rest) => some (x, .node v rest r)
      | none =>
        match takeAt steps.tail r with
        | some (x, rest) => some (x, .node v l rest)
        | none => some (v, .empty)

/-- Puts `x` in the place of the top. -/
def refill (x : α) : Heap α → Heap α
  | .empty => .node x .empty .empty
  | .node _ l r =>
    match l.top?, r.top? with
    | none, none => .node x .empty .empty
    | some v, none => joinLeft before v (refill x l) r
    | none, some w => joinRight before w l (refill x r)
    | some v, some w =>
      if before v w then joinLeft before v (refill x l) r else joinRight before w l (refill x r)

/-- Takes out the top of a tree whose last place is given. -/
def pop? (last : Nat) (t : Heap α) : Option (α × Heap α) :=
  match takeAt (way last) t with
  | none => none
  | some (x, .empty) => some (x, .empty)
  | some (x, .node v l r) => some (v, refill before x (.node v l r))

/-! ## What the tree holds -/

theorem toList_joinLeft (v : α) (l r : Heap α) :
    (joinLeft before v l r).toList.Perm (v :: (l.toList ++ r.toList)) := by
  cases l with
  | empty => exact List.Perm.refl _
  | node w ll lr =>
    simp only [joinLeft]
    split
    · exact List.Perm.swap v w _
    · exact List.Perm.refl _

theorem toList_joinRight (v : α) (l r : Heap α) :
    (joinRight before v l r).toList.Perm (v :: (l.toList ++ r.toList)) := by
  cases r with
  | empty => exact List.Perm.refl _
  | node w rl rr =>
    simp only [joinRight]
    split
    · simp only [toList]
      refine (List.Perm.cons w List.perm_middle).trans ((List.Perm.swap v w _).trans ?_)
      exact List.Perm.cons v List.perm_middle.symm
    · exact List.Perm.refl _

theorem toList_insertAt (x : α) (steps : List Bool) (t : Heap α) :
    (insertAt before x steps t).toList.Perm (x :: t.toList) := by
  induction t generalizing steps with
  | empty => exact List.Perm.refl _
  | node v l r ihl ihr =>
    simp only [insertAt]
    split
    · refine (toList_joinRight before v l _).trans ?_
      refine (List.Perm.cons v ((ihr _).append_left l.toList)).trans ?_
      exact (List.Perm.cons v List.perm_middle).trans (List.Perm.swap x v _)
    · refine (toList_joinLeft before v _ r).trans ?_
      refine (List.Perm.cons v ((ihl _).append_right r.toList)).trans ?_
      exact List.Perm.swap x v _

theorem takeAt_eq_none {steps : List Bool} {t : Heap α} (h : takeAt steps t = none) :
    t = .empty := by
  cases t with
  | empty => rfl
  | node v l r =>
    simp only [takeAt] at h
    split at h <;> split at h
    · cases h
    · split at h <;> cases h
    · cases h
    · split at h <;> cases h

theorem toList_takeAt {steps : List Bool} {t rest : Heap α} {x : α}
    (h : takeAt steps t = some (x, rest)) : t.toList.Perm (x :: rest.toList) := by
  induction t generalizing steps rest x with
  | empty => cases h
  | node v l r ihl ihr =>
    have left {y : α} {l' : Heap α} (hl : takeAt steps.tail l = some (y, l')) :
        (node v l r).toList.Perm (y :: (node v l' r).toList) :=
      (List.Perm.cons v ((ihl hl).append_right r.toList)).trans (List.Perm.swap y v _)
    have right {y : α} {r' : Heap α} (hr : takeAt steps.tail r = some (y, r')) :
        (node v l r).toList.Perm (y :: (node v l r').toList) :=
      (List.Perm.cons v (((ihr hr).append_left l.toList).trans List.perm_middle)).trans
        (List.Perm.swap y v _)
    have alone (hl : takeAt steps.tail l = none) (hr : takeAt steps.tail r = none) :
        (node v l r).toList.Perm [v] := by
      rw [takeAt_eq_none hl, takeAt_eq_none hr]
      exact List.Perm.refl _
    simp only [takeAt] at h
    split at h
    · split at h
      · rename_i hr
        cases h
        exact right hr
      · rename_i hr
        split at h
        · rename_i hl
          cases h
          exact left hl
        · rename_i hl
          cases h
          exact alone hl hr
    · split at h
      · rename_i hl
        cases h
        exact left hl
      · rename_i hl
        split at h
        · rename_i hr
          cases h
          exact right hr
        · rename_i hr
          cases h
          exact alone hl hr

theorem toList_of_top? {t : Heap α} {v : α} (h : t.top? = some v) :
    t.toList = v :: t.toList.tail := by
  cases t with
  | empty => cases h
  | node w l r => cases h; rfl

theorem eq_empty_of_top? {t : Heap α} (h : t.top? = none) : t = .empty := by
  cases t with
  | empty => rfl
  | node w l r => cases h

theorem toList_refill (x : α) (t : Heap α) :
    (refill before x t).toList.Perm (x :: t.toList.tail) := by
  induction t with
  | empty => exact List.Perm.refl _
  | node u l r ihl ihr =>
    have left {v : α} (hl : l.top? = some v) :
        (joinLeft before v (refill before x l) r).toList.Perm (x :: (l.toList ++ r.toList)) := by
      rw [toList_of_top? hl]
      refine (toList_joinLeft before v _ r).trans ?_
      refine (List.Perm.cons v (ihl.append_right r.toList)).trans ?_
      exact List.Perm.swap x v _
    have right {w : α} (hr : r.top? = some w) :
        (joinRight before w l (refill before x r)).toList.Perm (x :: (l.toList ++ r.toList)) := by
      rw [toList_of_top? hr]
      refine (toList_joinRight before w l _).trans ?_
      refine (List.Perm.cons w (ihr.append_left l.toList)).trans ?_
      refine (List.Perm.cons w List.perm_middle).trans ?_
      exact (List.Perm.swap x w _).trans (List.Perm.cons x List.perm_middle.symm)
    simp only [refill]
    split
    · rename_i hl hr
      rw [eq_empty_of_top? hl, eq_empty_of_top? hr]
      exact List.Perm.refl _
    · rename_i hl hr
      exact left hl
    · rename_i hl hr
      exact right hr
    · rename_i hl hr
      split
      · exact left hl
      · exact right hr

theorem toList_pop? {last : Nat} {t rest : Heap α} {v : α}
    (h : pop? before last t = some (v, rest)) : t.toList.Perm (v :: rest.toList) := by
  simp only [pop?] at h
  split at h
  · cases h
  · rename_i ht
    cases h
    exact toList_takeAt ht
  · rename_i x w l r ht
    cases h
    refine (toList_takeAt ht).trans ((List.Perm.swap _ x _).trans ?_)
    exact List.Perm.cons _ (toList_refill before x (.node _ l r)).symm

theorem pop?_eq_none {last : Nat} {t : Heap α} (h : pop? before last t = none) : t = .empty := by
  simp only [pop?] at h
  split at h
  · rename_i ht
    exact takeAt_eq_none ht
  · cases h
  · cases h

/-! ## Order -/

/-- What an order by which things come before each other has to keep.  Several things may stand side
by side, with none of them before another. -/
structure Precedence : Prop where
  /-- Nothing comes both before and after something. -/
  asymm : ∀ {a b}, before a b = true → before b a = false
  /-- What does not come before something does not come before what stands ahead of that. -/
  trans : ∀ {a b c}, before b a = false → before c b = false → before c a = false

/-- Nothing comes before what stands above it. -/
def Ordered : Heap α → Prop
  | .empty => True
  | .node v l r =>
    (∀ w ∈ l.toList ++ r.toList, before w v = false) ∧ Ordered l ∧ Ordered r

variable {before}

theorem Ordered.least_top {t : Heap α} {v : α} (ht : Ordered before t) (h : t.top? = some v) :
    ∀ w ∈ t.toList.tail, before w v = false := by
  cases t with
  | empty => cases h
  | node u l r => cases h; exact ht.1

/-- What has just been put into an ordered heap above `ms` may stand anywhere; all that stands
below the top still does not come before what `ms` does not come before. -/
theorem Ordered.tail_below {t : Heap α} {x v : α} {ms : List α} (P : Precedence before)
    (ht : Ordered before t) (same : t.toList.Perm (x :: ms))
    (hms : ∀ m ∈ ms, before m v = false) : ∀ y ∈ t.toList.tail, before y v = false := by
  cases t with
  | empty => simp [toList]
  | node u l r =>
    intro y hy
    simp only [toList, List.tail_cons] at hy same
    rcases List.mem_cons.1 (same.subset List.mem_cons_self) with rfl | hu
    · exact hms y (same.cons_inv.subset hy)
    · exact P.trans (hms u hu) (ht.1 y hy)

theorem ordered_joinLeft (P : Precedence before) {v : α} {l r : Heap α}
    (hl : Ordered before l) (hr : Ordered before r)
    (below : ∀ y ∈ l.toList.tail, before y v = false)
    (belowRight : ∀ y ∈ r.toList, before y v = false) :
    Ordered before (joinLeft before v l r) := by
  cases l with
  | empty => exact ⟨belowRight, trivial, hr⟩
  | node w ll lr =>
    simp only [joinLeft]
    split
    · rename_i hw
      refine ⟨?_, ⟨below, hl.2⟩, hr⟩
      intro y hy
      rcases List.mem_append.1 hy with hy | hy
      · rcases List.mem_cons.1 hy with rfl | hy
        · exact P.asymm hw
        · exact hl.1 y hy
      · exact P.trans (P.asymm hw) (belowRight y hy)
    · rename_i hw
      refine ⟨?_, hl, hr⟩
      intro y hy
      rcases List.mem_append.1 hy with hy | hy
      · rcases List.mem_cons.1 hy with rfl | hy
        · exact Bool.eq_false_iff.2 hw
        · exact below y hy
      · exact belowRight y hy

theorem ordered_joinRight (P : Precedence before) {v : α} {l r : Heap α}
    (hl : Ordered before l) (hr : Ordered before r)
    (belowLeft : ∀ y ∈ l.toList, before y v = false)
    (below : ∀ y ∈ r.toList.tail, before y v = false) :
    Ordered before (joinRight before v l r) := by
  cases r with
  | empty => exact ⟨by simpa [toList] using belowLeft, hl, trivial⟩
  | node w rl rr =>
    simp only [joinRight]
    split
    · rename_i hw
      refine ⟨?_, hl, below, hr.2⟩
      intro y hy
      rcases List.mem_append.1 hy with hy | hy
      · exact P.trans (P.asymm hw) (belowLeft y hy)
      · rcases List.mem_cons.1 hy with rfl | hy
        · exact P.asymm hw
        · exact hr.1 y hy
    · rename_i hw
      refine ⟨?_, hl, hr⟩
      intro y hy
      rcases List.mem_append.1 hy with hy | hy
      · exact belowLeft y hy
      · rcases List.mem_cons.1 hy with rfl | hy
        · exact Bool.eq_false_iff.2 hw
        · exact below y hy

theorem ordered_insertAt (P : Precedence before) (x : α) {t : Heap α} (ht : Ordered before t)
    (steps : List Bool) : Ordered before (insertAt before x steps t) := by
  induction t generalizing steps with
  | empty => exact ⟨by simp [toList], trivial, trivial⟩
  | node v l r ihl ihr =>
    obtain ⟨above, hl, hr⟩ := ht
    have aboveLeft : ∀ y ∈ l.toList, before y v = false := fun y hy =>
      above y (List.mem_append_left _ hy)
    have aboveRight : ∀ y ∈ r.toList, before y v = false := fun y hy =>
      above y (List.mem_append_right _ hy)
    simp only [insertAt]
    split
    · have hr' := ihr hr steps.tail
      exact ordered_joinRight P hl hr' aboveLeft
        (hr'.tail_below P (toList_insertAt before x _ r) aboveRight)
    · have hl' := ihl hl steps.tail
      exact ordered_joinLeft P hl' hr (hl'.tail_below P (toList_insertAt before x _ l) aboveLeft)
        aboveRight

theorem ordered_takeAt {steps : List Bool} {t rest : Heap α} {x : α} (ht : Ordered before t)
    (h : takeAt steps t = some (x, rest)) : Ordered before rest := by
  induction t generalizing steps rest x with
  | empty => cases h
  | node v l r ihl ihr =>
    obtain ⟨above, hl, hr⟩ := ht
    have left {y : α} {l' : Heap α} (h' : takeAt steps.tail l = some (y, l')) :
        Ordered before (.node v l' r) := by
      refine ⟨?_, ihl hl h', hr⟩
      intro w hw
      rcases List.mem_append.1 hw with hw | hw
      · have := (toList_takeAt h').symm.subset (List.mem_cons_of_mem y hw)
        exact above w (List.mem_append_left _ this)
      · exact above w (List.mem_append_right _ hw)
    have right {y : α} {r' : Heap α} (h' : takeAt steps.tail r = some (y, r')) :
        Ordered before (.node v l r') := by
      refine ⟨?_, hl, ihr hr h'⟩
      intro w hw
      rcases List.mem_append.1 hw with hw | hw
      · exact above w (List.mem_append_left _ hw)
      · have := (toList_takeAt h').symm.subset (List.mem_cons_of_mem y hw)
        exact above w (List.mem_append_right _ this)
    simp only [takeAt] at h
    split at h
    · split at h
      · rename_i hr'; cases h; exact right hr'
      · split at h
        · rename_i hl'; cases h; exact left hl'
        · cases h; trivial
    · split at h
      · rename_i hl'; cases h; exact left hl'
      · split at h
        · rename_i hr'; cases h; exact right hr'
        · cases h; trivial

theorem top?_takeAt {steps : List Bool} {t l r : Heap α} {x v : α}
    (h : takeAt steps t = some (x, .node v l r)) : t.top? = some v := by
  cases t with
  | empty => cases h
  | node u l' r' =>
    simp only [takeAt] at h
    split at h <;> split at h
    · cases h; rfl
    · split at h <;> cases h; rfl
    · cases h; rfl
    · split at h <;> cases h; rfl

theorem ordered_refill (P : Precedence before) (x : α) {t : Heap α} (ht : Ordered before t) :
    Ordered before (refill before x t) := by
  induction t with
  | empty => exact ⟨by simp [toList], trivial, trivial⟩
  | node u l r ihl ihr =>
    obtain ⟨-, hl, hr⟩ := ht
    have left {v : α} (hv : l.top? = some v) (aside : ∀ y ∈ r.toList, before y v = false) :
        Ordered before (joinLeft before v (refill before x l) r) :=
      ordered_joinLeft P (ihl hl) hr
        ((ihl hl).tail_below P (toList_refill before x l) (hl.least_top hv)) aside
    have right {w : α} (hw : r.top? = some w) (aside : ∀ y ∈ l.toList, before y w = false) :
        Ordered before (joinRight before w l (refill before x r)) :=
      ordered_joinRight P hl (ihr hr) aside
        ((ihr hr).tail_below P (toList_refill before x r) (hr.least_top hw))
    -- The top that is drawn up has to stand before the whole other side.
    have aside {s : Heap α} {v w : α} (hs : Ordered before s) (hw : s.top? = some w)
        (hwv : before w v = false) : ∀ y ∈ s.toList, before y v = false := by
      intro y hy
      rw [toList_of_top? hw] at hy
      rcases List.mem_cons.1 hy with rfl | hy
      · exact hwv
      · exact P.trans hwv (hs.least_top hw y hy)
    simp only [refill]
    split
    · exact ⟨by simp [toList], trivial, trivial⟩
    · rename_i hv hw
      exact left hv (by simp [eq_empty_of_top? hw, toList])
    · rename_i hv hw
      exact right hw (by simp [eq_empty_of_top? hv, toList])
    · rename_i v w hv hw
      split
      · rename_i hvw
        exact left hv (aside hr hw (P.asymm hvw))
      · rename_i hvw
        exact right hw (aside hl hv (Bool.eq_false_iff.2 hvw))

theorem ordered_pop? (P : Precedence before) {last : Nat} {t rest : Heap α} {v : α}
    (ht : Ordered before t) (h : pop? before last t = some (v, rest)) : Ordered before rest := by
  simp only [pop?] at h
  split at h
  · cases h
  · cases h; trivial
  · rename_i hx
    cases h
    exact ordered_refill P _ (ordered_takeAt ht hx)

/-- **What is taken out of a heap in order is least**: nothing that is left comes before it. -/
theorem pop?_least {last : Nat} {t rest : Heap α} {v : α}
    (ht : Ordered before t) (h : pop? before last t = some (v, rest)) :
    ∀ w ∈ rest.toList, before w v = false := by
  intro w hw
  have same := toList_pop? before h
  simp only [pop?] at h
  split at h
  · cases h
  · cases h; cases hw
  · rename_i hx
    cases h
    have hv := top?_takeAt hx
    rw [toList_of_top? hv] at same
    exact ht.least_top hv w (same.cons_inv.symm.subset hw)

end Heap

end FleetMatch
