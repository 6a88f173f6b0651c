import FleetMatch.Index.Rank

/-!
# The order of neighbours

Neighbours with distinct ordinals are never level with each other, so they can be put into rank order
in one way only.  A shortlist is the beginning of such an order.

* `ranksBefore_eq` — neighbours rank by the pair of distance and ordinal, hence
  `ranksBefore_asymm`, `ranksBefore_trans` and `ranksBefore_or`.
* `inRankOrder_eq` — what stands in strict order is the rank order of its neighbours.
* `inRankOrder_filter`, `filter_prefix` — leaving neighbours out keeps the order, and leaving out all
  from some distance on leaves a beginning.
* `perm_insert`, `pairwise_insert` — a shortlist stays in order, the worst first.
-/

set_option autoImplicit false

namespace FleetMatch

namespace Neighbor

/-! ## Standing -/

attribute [local instance] lexOrd

/-- What a neighbour is ranked by. -/
def standing (n : Neighbor) : (Int × Int × Int) × Nat := (Scalar.rank n.distance, n.entry.ordinal)

theorem ranksBefore_eq (a b : Neighbor) :
    a.ranksBefore b = (compare a.standing b.standing == .lt) := by
  have distances : Scalar.rankLT b.distance a.distance =
      (compare (Scalar.rank a.distance) (Scalar.rank b.distance) == .gt) := by
    rw [Scalar.rankLT_eq, Std.OrientedOrd.eq_swap]
    cases compare (Scalar.rank a.distance) (Scalar.rank b.distance) <;> rfl
  have ordinals : decide (a.entry.ordinal < b.entry.ordinal) =
      (compare a.entry.ordinal b.entry.ordinal == .lt) := by
    by_cases h : a.entry.ordinal < b.entry.ordinal
    · simp [h, Nat.compare_eq_lt.2 h]
    · have := mt Nat.compare_eq_lt.1 h
      simp [h, this]
  show _ = ((compare (Scalar.rank a.distance) (Scalar.rank b.distance)).then
    (compare a.entry.ordinal b.entry.ordinal) == .lt)
  rw [ranksBefore, distances, ordinals, Scalar.rankLT_eq]
  cases compare (Scalar.rank a.distance) (Scalar.rank b.distance) <;>
    cases compare a.entry.ordinal b.entry.ordinal <;> rfl

theorem ranksBefore_iff (a b : Neighbor) :
    a.ranksBefore b = true ↔ compare a.standing b.standing = .lt := by
  rw [ranksBefore_eq, beq_iff_eq]

theorem ranksBefore_asymm {a b : Neighbor} (h : a.ranksBefore b = true) :
    b.ranksBefore a = false := by
  rw [ranksBefore_iff] at h
  rw [ranksBefore_eq, Std.OrientedOrd.eq_swap, h]
  rfl

theorem ranksBefore_trans {a b c : Neighbor} (hab : a.ranksBefore b = true)
    (hbc : b.ranksBefore c = true) : a.ranksBefore c = true := by
  rw [ranksBefore_iff] at *
  exact Std.TransCmp.lt_trans hab hbc

theorem ranksBefore_or {a b : Neighbor} (h : a.entry.ordinal ≠ b.entry.ordinal) :
    a.ranksBefore b = true ∨ b.ranksBefore a = true := by
  rw [ranksBefore_iff, ranksBefore_iff, Std.OrientedOrd.eq_swap (a := b.standing)]
  cases hc : compare a.standing b.standing with
  | lt => exact .inl rfl
  | gt => exact .inr rfl
  | eq => exact absurd (congrArg Prod.snd (Std.LawfulEqOrd.eq_of_compare hc)) h

theorem ranksBefore_of_rankLT {a b : Neighbor} (h : Scalar.rankLT a.distance b.distance = true) :
    a.ranksBefore b = true := by
  simp [ranksBefore, h]

theorem rankLE_of_ranksBefore {a b : Neighbor} (h : a.ranksBefore b = true) :
    Scalar.rankLE a.distance b.distance = true := by
  cases hba : Scalar.rankLT b.distance a.distance with
  | false => simpa [Scalar.rankLT] using hba
  | true => simp [ranksBefore_asymm (ranksBefore_of_rankLT hba)] at h

theorem ranksUpTo_of_ranksBefore {a b : Neighbor} (h : a.ranksBefore b = true) :
    a.ranksUpTo b = true := by
  simp [ranksUpTo, ranksBefore_asymm h]

theorem ranksUpTo_total (a b : Neighbor) : (a.ranksUpTo b || b.ranksUpTo a) = true := by
  cases h : b.ranksBefore a with
  | false => simp [ranksUpTo, h]
  | true => simp [ranksUpTo, h, ranksBefore_asymm h]

theorem ranksUpTo_trans (a b c : Neighbor) (hab : a.ranksUpTo b = true)
    (hbc : b.ranksUpTo c = true) : a.ranksUpTo c = true := by
  have le (x y : Neighbor) : x.ranksUpTo y = (compare x.standing y.standing).isLE := by
    rw [ranksUpTo, ranksBefore_eq, Std.OrientedOrd.eq_swap]
    cases compare x.standing y.standing <;> rfl
  rw [le] at *
  exact Std.TransOrd.isLE_trans hab hbc

/-! ## Rank order -/

/-- No two of the neighbours are the same entry. -/
def Distinct (ns : List Neighbor) : Prop := ns.Pairwise fun a b => a.entry.ordinal ≠ b.entry.ordinal

/-- Each of the neighbours ranks strictly before all that follow. -/
def Ranked (ns : List Neighbor) : Prop := ns.Pairwise fun a b => a.ranksBefore b = true

instance (ns : List Neighbor) : Decidable (Ranked ns) :=
  inferInstanceAs (Decidable (ns.Pairwise fun a b => a.ranksBefore b = true))

theorem Distinct.perm {ns ms : List Neighbor} (h : Distinct ns) (same : ns.Perm ms) : Distinct ms :=
  List.Pairwise.perm h same fun hab hba => hab hba.symm

theorem Distinct.append {ns ms : List Neighbor} (h : Distinct (ns ++ ms)) :
    Distinct ns ∧ Distinct ms ∧ ∀ a ∈ ns, ∀ b ∈ ms, a.entry.ordinal ≠ b.entry.ordinal :=
  List.pairwise_append.1 h

theorem distinct_measure {es : List Entry} (h : (es.map Entry.ordinal).Nodup) (metric : Metric)
    (q : Place) : Distinct (es.map (measure metric q)) :=
  List.pairwise_map.2 (List.pairwise_map.1 h)

theorem perm_inRankOrder (ns : List Neighbor) : (inRankOrder ns).Perm ns :=
  List.mergeSort_perm ns _

theorem ranked_inRankOrder {ns : List Neighbor} (distinct : Distinct ns) :
    Ranked (inRankOrder ns) := by
  have sorted : (inRankOrder ns).Pairwise fun a b => a.ranksUpTo b = true :=
    List.pairwise_mergeSort ranksUpTo_trans ranksUpTo_total ns
  refine (sorted.and (distinct.perm (perm_inRankOrder ns).symm)).imp ?_
  intro a b h
  rcases ranksBefore_or h.2 with hab | hba
  · exact hab
  · simp [ranksUpTo, hba] at h

/-- **What stands in strict order is the rank order of its neighbours.** -/
theorem inRankOrder_eq {ns ms : List Neighbor} (same : ms.Perm ns) (ranked : Ranked ms) :
    inRankOrder ns = ms := by
  have sorted : (inRankOrder ns).Pairwise fun a b => a.ranksUpTo b = true :=
    List.pairwise_mergeSort ranksUpTo_trans ranksUpTo_total ns
  refine List.Perm.eq_of_pairwise ?_ sorted (ranked.imp ranksUpTo_of_ranksBefore)
    ((perm_inRankOrder ns).trans same.symm)
  intro a b ha hb hab hba
  have comparable : ∀ x ∈ ms, ∀ y ∈ ms, x = y ∨ x.ranksBefore y = true ∨ y.ranksBefore x = true := by
    refine List.Pairwise.forall_of_forall_of_flip (fun x _ => .inl rfl)
      (ranked.imp fun h => .inr (.inl h)) (ranked.imp fun h => .inr (.inr h))
  have ha : a ∈ ms := same.symm.subset ((perm_inRankOrder ns).subset ha)
  rcases comparable a ha b hb with rfl | h | h
  · rfl
  · simp [ranksUpTo, h] at hba
  · simp [ranksUpTo, h] at hab

/-- Leaving neighbours out keeps the rank order of the others. -/
theorem inRankOrder_filter {ns all : List Neighbor} (distinct : Distinct all) (same : ns.Perm all)
    (p : Neighbor → Bool) : inRankOrder (ns.filter p) = (inRankOrder all).filter p := by
  refine inRankOrder_eq ?_ ((ranked_inRankOrder distinct).filter p)
  exact ((perm_inRankOrder all).trans same.symm).filter p

/-- If nothing is left out that ranks before something kept, then what is kept is a beginning. -/
theorem filter_prefix {ns : List Neighbor} (ranked : Ranked ns) {p : Neighbor → Bool}
    (down : ∀ a b : Neighbor, a.ranksBefore b = true → p b = true → p a = true) :
    ns.filter p <+: ns := by
  induction ns with
  | nil => exact List.nil_prefix
  | cons n rest ih =>
    obtain ⟨first, ranked⟩ := List.pairwise_cons.1 ranked
    cases hn : p n with
    | true =>
      rw [List.filter_cons_of_pos hn]
      exact (List.prefix_cons_inj n).2 (ih ranked)
    | false =>
      have none : rest.filter p = [] := by
        rw [List.filter_eq_nil_iff]
        intro m hm hp
        rw [down n m (first m hm) hp] at hn
        cases hn
      rw [List.filter_cons_of_neg (by simp [hn]), none]
      exact List.nil_prefix

end Neighbor

/-! ## Shortlists -/

namespace Shortlist

open Neighbor

/-- The neighbours stand in strict order, the worst first. -/
def WorstFirst (ns : List Neighbor) : Prop := ns.Pairwise fun a b => b.ranksBefore a = true

theorem WorstFirst.ranked {ns : List Neighbor} (h : WorstFirst ns) : Ranked ns.reverse :=
  List.pairwise_reverse.2 h

theorem perm_insert (n : Neighbor) (ns : List Neighbor) : (insert n ns).Perm (n :: ns) := by
  induction ns with
  | nil => exact List.Perm.refl _
  | cons m rest ih =>
    unfold insert
    split
    · exact List.Perm.refl _
    · exact (List.Perm.cons m ih).trans (List.Perm.swap n m rest)

theorem pairwise_insert {n : Neighbor} {ns : List Neighbor} (h : WorstFirst ns)
    (new : ∀ m ∈ ns, m.entry.ordinal ≠ n.entry.ordinal) : WorstFirst (insert n ns) := by
  induction ns with
  | nil => exact List.pairwise_singleton _ n
  | cons m rest ih =>
    obtain ⟨first, ordered⟩ := List.pairwise_cons.1 h
    unfold insert
    split
    · rename_i hmn
      refine List.pairwise_cons.2 ⟨?_, h⟩
      intro x hx
      rcases List.mem_cons.1 hx with rfl | hx
      · exact hmn
      · exact ranksBefore_trans (first x hx) hmn
    · rename_i hmn
      refine List.pairwise_cons.2 ⟨?_, ih ordered fun x hx => new x (List.mem_cons_of_mem m hx)⟩
      intro x hx
      rcases List.mem_cons.1 ((perm_insert n rest).subset hx) with rfl | hx
      · exact (ranksBefore_or (new m List.mem_cons_self)).resolve_left hmn
      · exact first x hx

/-- A full shortlist that excludes a bound is nearer than the bound throughout. -/
theorem rankLT_of_excludes {best : Shortlist} {bound : Float} (h : best.excludes bound = true)
    (ordered : WorstFirst best.worstFirst) :
    best.room = 0 ∧ ∀ b ∈ best.worstFirst, Scalar.rankLT b.distance bound = true := by
  simp only [excludes, Bool.and_eq_true, beq_iff_eq] at h
  refine ⟨h.1, ?_⟩
  have hw := h.2
  split at hw
  · rename_i worst rest e
    rw [e] at ordered ⊢
    intro b hb
    rcases List.mem_cons.1 hb with rfl | hb
    · exact hw
    · have nearer := rankLE_of_ranksBefore ((List.pairwise_cons.1 ordered).1 b hb)
      exact Scalar.rankLT_of_rankLE_of_rankLT nearer hw
  · cases hw

end Shortlist

end FleetMatch
