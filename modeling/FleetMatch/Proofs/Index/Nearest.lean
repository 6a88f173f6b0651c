import FleetMatch.Index.Search
import FleetMatch.Proofs.Index.Bounds
import FleetMatch.Proofs.Index.Ranking

/-!
# The nearest clients

A search visits some trees of an index and gives up the others.  Whatever it gives up goes to a list
of dropped neighbours that only the proof keeps: the neighbours of the shortlist, the dropped ones and
those that are still to be visited are at all times all neighbours.

* `Search.Progress`: the invariant of a search.  With lower bounds, no dropped neighbour ranks before
  one of the shortlist.
* `Progress.offer`, `Progress.drop` — what taking a neighbour in and giving neighbours up keep.
* `propose_progress`, `visit_progress`, `run_progress` — hence what proposing a tree, visiting a tree
  and a whole search keep, for any agenda and any bounds.
* `Progress.length_toList` — a search that has ended holds as many neighbours as were wanted.
* `Progress.toList_eq` — with lower bounds, what is found in the end is the beginning of the rank order.
* `Progress.toList_eq_of_length_le` — so it is without them, if nothing has to be dropped.
* `nearestBy_of_boundsTree`, `nearestBy_progress` — what an index answers, for bounds over its tree and
  for bounds over all proper boxes.
* `nearestBy_of_length_le` — an index finds all clients in rank order, if all are wanted.
* `nearestBy_eq_take` — the answer of an index is the answer found by measuring everything.
-/

set_option autoImplicit false

namespace FleetMatch

open Neighbor

open scoped List

namespace Search

/-! ## What a search keeps -/

/-- A search for `k` of the neighbours `all` that has dropped some and has others still to visit. -/
structure Progress (lower : Prop) (k : Nat) (all : List Neighbor) (best : Shortlist)
    (dropped pending : List Neighbor) : Prop where
  /-- No neighbour is lost and none comes twice. -/
  same : (best.worstFirst ++ (dropped ++ pending)).Perm all
  ordered : Shortlist.WorstFirst best.worstFirst
  length : best.room + best.worstFirst.length = k
  /-- Nothing is dropped as long as there is room. -/
  full : dropped ≠ [] → best.room = 0
  /-- With lower bounds, the shortlist ranks before all that is dropped. -/
  behind : lower → ∀ d ∈ dropped, ∀ b ∈ best.worstFirst, b.ranksBefore d = true

variable {lower : Prop} {k : Nat} {all : List Neighbor} {best : Shortlist}
  {dropped pending : List Neighbor}

theorem Progress.start (lower : Prop) (k : Nat) (all : List Neighbor) :
    Progress lower k all (.empty k) [] all := by
  refine ⟨List.Perm.refl _, List.Pairwise.nil, Nat.add_zero k, ?_, ?_⟩
  · intro h
    exact absurd rfl h
  · intro _ d hd
    cases hd

theorem Progress.perm {pending' : List Neighbor} (h : Progress lower k all best dropped pending)
    (same : pending.Perm pending') : Progress lower k all best dropped pending' := by
  refine ⟨?_, h.ordered, h.length, h.full, h.behind⟩
  exact ((same.symm.append_left dropped).append_left best.worstFirst).trans h.same

/-- Neighbours may be given up if there is no room and, with lower bounds, all of the shortlist ranks
before them. -/
theorem Progress.drop {ns : List Neighbor} (h : Progress lower k all best dropped (ns ++ pending))
    (room : best.room = 0)
    (worse : lower → ∀ n ∈ ns, ∀ b ∈ best.worstFirst, b.ranksBefore n = true) :
    Progress lower k all best (dropped ++ ns) pending := by
  refine ⟨?_, h.ordered, h.length, fun _ => room, ?_⟩
  · rw [List.append_assoc]
    exact h.same
  · intro hl d hd
    rcases List.mem_append.1 hd with hd | hd
    · exact h.behind hl d hd
    · exact worse hl d hd

theorem Progress.drop_all (h : Progress lower k all best dropped pending) (room : best.room = 0)
    (worse : lower → ∀ n ∈ pending, ∀ b ∈ best.worstFirst, b.ranksBefore n = true) :
    Progress lower k all best (dropped ++ pending) [] := by
  refine Progress.drop (h.perm ?_) room worse
  rw [List.append_nil]

theorem Progress.same_insert {n : Neighbor}
    (h : Progress lower k all best dropped (n :: pending)) :
    Shortlist.insert n best.worstFirst ++ (dropped ++ pending) ~ all :=
  calc Shortlist.insert n best.worstFirst ++ (dropped ++ pending)
    _ ~ n :: best.worstFirst ++ (dropped ++ pending) := (Shortlist.perm_insert n _).append_right _
    _ ~ best.worstFirst ++ n :: (dropped ++ pending) := List.perm_middle.symm
    _ ~ best.worstFirst ++ (dropped ++ n :: pending) := List.perm_middle.symm.append_left _
    _ ~ all := h.same

theorem Progress.ordered_insert {n : Neighbor} (distinct : Distinct all)
    (h : Progress lower k all best dropped (n :: pending)) :
    Shortlist.WorstFirst (Shortlist.insert n best.worstFirst) := by
  have apart : Distinct (best.worstFirst ++ (dropped ++ n :: pending)) := distinct.perm h.same.symm
  refine Shortlist.pairwise_insert h.ordered ?_
  intro m hm
  refine apart.append.2.2 m hm n ?_
  exact List.mem_append_right _ List.mem_cons_self

/-- A shortlist with room takes a neighbour in. -/
theorem Progress.admit {n : Neighbor} {room : Nat} (distinct : Distinct all)
    (h : Progress lower k all best dropped (n :: pending)) (hr : best.room = room + 1) :
    Progress lower k all ⟨room, Shortlist.insert n best.worstFirst⟩ dropped pending := by
  have none : ¬ dropped ≠ [] := by
    intro hd
    have := h.full hd
    omega
  refine ⟨h.same_insert, h.ordered_insert distinct, ?_, fun hd => absurd hd none, ?_⟩
  · have := h.length
    show room + (Shortlist.insert n best.worstFirst).length = k
    rw [Shortlist.length_insert]
    omega
  · intro _ d hd
    exact absurd (List.ne_nil_of_mem hd) none

/-- The worst of a shortlist without room goes to the dropped neighbours. -/
theorem Progress.evict {worst n : Neighbor} {rest : List Neighbor} (distinct : Distinct all)
    (h : Progress lower k all best dropped (n :: pending)) (room : best.room = 0)
    (e : Shortlist.insert n best.worstFirst = worst :: rest) :
    Progress lower k all ⟨0, rest⟩ (worst :: dropped) pending := by
  have same := h.same_insert
  have ordered := h.ordered_insert distinct
  have grown := Shortlist.perm_insert n best.worstFirst
  rw [e] at same ordered grown
  obtain ⟨first, ordered⟩ := List.pairwise_cons.1 ordered
  refine ⟨List.perm_middle.trans same, ordered, ?_, fun _ => rfl, ?_⟩
  · have := grown.length_eq
    have := h.length
    simp only [List.length_cons] at *
    omega
  · intro hl d hd b hb
    rcases List.mem_cons.1 hd with rfl | hd
    · exact first b hb
    · rcases List.mem_cons.1 (grown.subset (List.mem_cons_of_mem worst hb)) with rfl | hb'
      · -- The new neighbour stays, so a worse one of the old shortlist goes.
        have stays := first b hb
        rcases List.mem_cons.1 (grown.subset List.mem_cons_self) with rfl | hw
        · simp [ranksBefore_asymm stays] at stays
        · exact ranksBefore_trans stays (h.behind hl d hd worst hw)
      · exact h.behind hl d hd b hb'

/-- **Taking a neighbour in keeps the invariant.** -/
theorem Progress.offer {n : Neighbor} (distinct : Distinct all)
    (h : Progress lower k all best dropped (n :: pending)) :
    ∃ dropped', Progress lower k all (best.offer n) dropped' pending := by
  unfold Shortlist.offer
  split
  · rename_i room
    have lengthened := Shortlist.length_insert n best.worstFirst
    cases e : Shortlist.insert n best.worstFirst with
    | nil => simp [e] at lengthened
    | cons worst rest => exact ⟨worst :: dropped, h.evict distinct room e⟩
  · rename_i hr
    exact ⟨dropped, h.admit distinct hr⟩

theorem Progress.foldl_offer {ns : List Neighbor} (distinct : Distinct all)
    (h : Progress lower k all best dropped (ns ++ pending)) :
    ∃ dropped', Progress lower k all (ns.foldl Shortlist.offer best) dropped' pending := by
  induction ns generalizing best dropped with
  | nil => exact ⟨dropped, h⟩
  | cons n rest ih =>
    obtain ⟨dropped', taken⟩ := Progress.offer distinct h
    exact ih taken

/-! ## The end of a search -/

theorem Progress.perm_toList (h : Progress lower k all best dropped []) :
    best.toList ++ dropped ~ all := by
  have same := h.same
  rw [List.append_nil] at same
  exact ((List.reverse_perm best.worstFirst).append_right dropped).trans same

/-- **A search that has ended holds as many neighbours as were wanted**, if there are so many. -/
theorem Progress.length_toList (h : Progress lower k all best dropped []) (few : k ≤ all.length) :
    best.toList.length = k := by
  have reversed : best.toList.length = best.worstFirst.length := List.length_reverse
  have total := h.length
  by_cases none : dropped = []
  · have same := h.perm_toList.length_eq
    rw [none, List.append_nil] at same
    omega
  · have room := h.full none
    omega

/-- **With lower bounds, what is found in the end is the beginning of the rank order.** -/
theorem Progress.toList_eq {lower : Prop} (hl : lower) (distinct : Distinct all)
    (h : Progress lower k all best dropped []) : best.toList = (inRankOrder all).take k := by
  have same := h.perm_toList
  have apart : Distinct (best.toList ++ dropped) := distinct.perm same.symm
  have ranking : inRankOrder all = best.toList ++ inRankOrder dropped := by
    refine inRankOrder_eq ?_ ?_
    · exact ((perm_inRankOrder dropped).append_left best.toList).trans same
    · refine List.pairwise_append.2 ⟨h.ordered.ranked, ranked_inRankOrder apart.append.2.1, ?_⟩
      intro b hb d hd
      exact h.behind hl d ((perm_inRankOrder dropped).subset hd) b (List.mem_reverse.1 hb)
  have length : best.toList.length = best.worstFirst.length := List.length_reverse
  have total := h.length
  rw [ranking]
  by_cases hd : dropped = []
  · subst hd
    rw [show inRankOrder [] = [] from List.mergeSort_nil, List.append_nil, List.take_of_length_le]
    omega
  · have := h.full hd
    rw [List.take_left']
    omega

theorem Progress.dropped_eq_nil (h : Progress lower k all best dropped [])
    (enough : all.length ≤ k) : dropped = [] := by
  cases dropped with
  | nil => rfl
  | cons d rest =>
    have room := h.full (List.cons_ne_nil d rest)
    have total := h.length
    have same := h.same.length_eq
    simp only [List.length_append, List.length_cons, List.length_nil] at same
    omega

/-- **With room for all, all are found in rank order**, whatever the bounds are. -/
theorem Progress.toList_eq_of_length_le (distinct : Distinct all)
    (h : Progress lower k all best dropped []) (enough : all.length ≤ k) :
    best.toList = (inRankOrder all).take k := by
  have none := h.dropped_eq_nil enough
  subst none
  have sure : Progress True k all best [] [] := by
    refine ⟨h.same, h.ordered, h.length, h.full, ?_⟩
    intro _ d hd
    cases hd
  exact sure.toList_eq trivial distinct

/-! ## Trees to visit -/

section

variable (agenda : Agenda) (metric : Metric) (q : Place) (lower : Prop)

/-- The neighbours under the trees to visit. -/
def awaiting (s : agenda.State) : List Neighbor :=
  (agenda.toList s).flatMap fun v => v.tree.neighbors metric q

/-- All trees to visit stand under their bounds, and so do the trees under them. -/
def Waiting (s : agenda.State) : Prop :=
  ∀ v ∈ agenda.toList s, v.tree.Bounded metric q lower ∧ metric.bound? q v.tree.box = some v.bound

variable {agenda metric q lower}

theorem awaiting_empty : awaiting agenda metric q agenda.empty = [] := by
  rw [awaiting, agenda.toList_empty]
  rfl

theorem awaiting_insert (v : Visit) (s : agenda.State) :
    awaiting agenda metric q (agenda.insert v s) ~
      v.tree.neighbors metric q ++ awaiting agenda metric q s :=
  (agenda.toList_insert v s).flatMap_right _

theorem awaiting_pop? {s rest : agenda.State} {v : Visit} (h : agenda.pop? s = some (v, rest)) :
    awaiting agenda metric q s ~ v.tree.neighbors metric q ++ awaiting agenda metric q rest :=
  (agenda.toList_pop? h).flatMap_right _

theorem waiting_empty : Waiting agenda metric q lower agenda.empty := by
  intro v hv
  rw [agenda.toList_empty] at hv
  cases hv

theorem Waiting.insert {s : agenda.State} {t : Tree} {bound : Float}
    (h : Waiting agenda metric q lower s) (ht : t.Bounded metric q lower)
    (hb : metric.bound? q t.box = some bound) :
    Waiting agenda metric q lower (agenda.insert ⟨bound, t⟩ s) := by
  intro v hv
  rcases List.mem_cons.1 ((agenda.toList_insert _ s).subset hv) with rfl | hv
  · exact ⟨ht, hb⟩
  · exact h v hv

theorem Waiting.pop? {s rest : agenda.State} {v : Visit} (h : Waiting agenda metric q lower s)
    (hp : agenda.pop? s = some (v, rest)) :
    v.tree.Bounded metric q lower ∧ metric.bound? q v.tree.box = some v.bound ∧
      Waiting agenda metric q lower rest := by
  have same := (agenda.toList_pop? hp).symm
  obtain ⟨ht, hb⟩ := h v (same.subset List.mem_cons_self)
  refine ⟨ht, hb, ?_⟩
  intro w hw
  exact h w (same.subset (List.mem_cons_of_mem v hw))

/-- A shortlist that excludes a bound ranks before all neighbours of a tree from that bound on. -/
theorem ranksBefore_of_excludes {best : Shortlist} {t : Tree} {bound least : Float}
    (ordered : Shortlist.WorstFirst best.worstFirst) (excluded : best.excludes least = true)
    (after : Scalar.rankLE least bound = true) (ht : t.Bounded metric q lower)
    (hb : metric.bound? q t.box = some bound) :
    lower → ∀ n ∈ t.neighbors metric q, ∀ b ∈ best.worstFirst, b.ranksBefore n = true := by
  intro hl n hn b hb'
  obtain ⟨bound', he, below⟩ := ht.hasBound
  cases hb.symm.trans he
  have farther : Scalar.rankLE least n.distance = true := Scalar.rankLE_trans after (below hl n hn)
  have nearer := (Shortlist.rankLT_of_excludes excluded ordered).2 b hb'
  exact ranksBefore_of_rankLT (Scalar.rankLT_of_rankLT_of_rankLE nearer farther)

/-! ## Steps -/

/-- **Proposing a tree keeps the invariant**: its neighbours are either still to be visited or
dropped. -/
theorem propose_progress {t : Tree} {s : agenda.State} (more : List Neighbor)
    (ht : t.Bounded metric q lower) (waiting : Waiting agenda metric q lower s)
    (h : Progress lower k all best dropped
      (t.neighbors metric q ++ (more ++ awaiting agenda metric q s))) :
    ∃ next dropped', propose agenda metric q best t s = some next ∧
      Waiting agenda metric q lower next ∧
      Progress lower k all best dropped' (more ++ awaiting agenda metric q next) := by
  obtain ⟨bound, hb, -⟩ := ht.hasBound
  unfold propose
  rw [hb, Option.map_some]
  by_cases excluded : best.excludes bound = true
  · refine ⟨s, dropped ++ t.neighbors metric q, by rw [if_pos excluded], waiting, ?_⟩
    refine h.drop (Shortlist.rankLT_of_excludes excluded h.ordered).1 ?_
    exact ranksBefore_of_excludes h.ordered excluded (Scalar.rankLE_refl bound) ht hb
  · refine ⟨agenda.insert ⟨bound, t⟩ s, dropped, by rw [if_neg excluded], waiting.insert ht hb, ?_⟩
    refine h.perm ?_
    calc t.neighbors metric q ++ (more ++ awaiting agenda metric q s)
      _ ~ more ++ (t.neighbors metric q ++ awaiting agenda metric q s) := by
        rw [← List.append_assoc, ← List.append_assoc]
        exact List.perm_append_comm.append_right _
      _ ~ more ++ awaiting agenda metric q (agenda.insert ⟨bound, t⟩ s) :=
        (awaiting_insert ⟨bound, t⟩ s).symm.append_left more

/-- **Visiting a tree keeps the invariant.** -/
theorem visit_progress {t : Tree} {s : agenda.State} (distinct : Distinct all)
    (ht : t.Bounded metric q lower) (waiting : Waiting agenda metric q lower s)
    (h : Progress lower k all best dropped (t.neighbors metric q ++ awaiting agenda metric q s)) :
    ∃ next best' dropped', visit agenda metric q best s t = some (next, best') ∧
      Waiting agenda metric q lower next ∧
      Progress lower k all best' dropped' (awaiting agenda metric q next) := by
  cases ht with
  | @leaf xs box _ =>
    obtain ⟨dropped', taken⟩ := h.foldl_offer distinct
    refine ⟨s, _, dropped', rfl, waiting, ?_⟩
    rw [Tree.neighbors, Tree.entries, List.foldl_map] at taken
    exact taken
  | @node left right box _ hl hr =>
    rw [Tree.neighbors, Tree.entries, List.map_append, List.append_assoc] at h
    obtain ⟨withLeft, dropped₁, eLeft, waitingLeft, hLeft⟩ := propose_progress _ hl waiting h
    obtain ⟨withBoth, dropped₂, eBoth, waitingBoth, hBoth⟩ :=
      propose_progress [] hr waitingLeft hLeft
    refine ⟨withBoth, best, dropped₂, ?_, waitingBoth, hBoth⟩
    simp [visit, eLeft, eBoth]

/-- **A search keeps the invariant**: it ends with a shortlist, and all neighbours that are not on it
have been dropped. -/
theorem run_progress {s : agenda.State} (distinct : Distinct all)
    (waiting : Waiting agenda metric q lower s)
    (h : Progress lower k all best dropped (awaiting agenda metric q s)) :
    ∃ found dropped', run agenda metric q s best = some found ∧
      Progress lower k all found dropped' [] := by
  fun_induction run agenda metric q s best generalizing dropped with
  | case1 s best hp =>
    refine ⟨best, dropped, rfl, ?_⟩
    rw [awaiting, agenda.eq_nil_of_pop? hp] at h
    exact h
  | case2 s best v rest hp excluded =>
    refine ⟨best, dropped ++ awaiting agenda metric q s, rfl, ?_⟩
    refine h.drop_all (Shortlist.rankLT_of_excludes excluded h.ordered).1 ?_
    intro hl n hn
    obtain ⟨w, hw, hn⟩ := List.mem_flatMap.1 hn
    obtain ⟨ht, hb⟩ := waiting w hw
    refine ranksBefore_of_excludes h.ordered excluded ?_ ht hb hl n hn
    -- The next visit has a smallest bound, so all others are excluded with it.
    rcases List.mem_cons.1 ((agenda.toList_pop? hp).subset hw) with rfl | hw
    · exact Scalar.rankLE_refl _
    · exact agenda.least hp w hw
  | case3 s best v rest hp included hv =>
    obtain ⟨ht, -, waiting'⟩ := waiting.pop? hp
    obtain ⟨next, best', dropped', e, -, -⟩ :=
      visit_progress distinct ht waiting' (h.perm (awaiting_pop? hp))
    rw [hv] at e
    cases e
  | case4 s best v rest hp included next best' hv ih =>
    obtain ⟨ht, -, waiting'⟩ := waiting.pop? hp
    obtain ⟨next', best'', dropped', e, waitingNext, hNext⟩ :=
      visit_progress distinct ht waiting' (h.perm (awaiting_pop? hp))
    rw [hv] at e
    cases e
    exact ih waitingNext hNext

end

end Search

/-! ## The answer of an index -/

namespace Index

open Search

variable {halving : Halving} {config : IndexConfig} {roster : Roster} {ix : Index} {q : Place}

/-- A search through a whole tree starts with all neighbours still to be visited. -/
theorem run_root_progress (agenda : Agenda) {metric : Metric} {lower : Prop} {tree : Tree}
    {bound : Float} {all : List Neighbor} (distinct : Distinct all)
    (ht : tree.Bounded metric q lower) (hb : metric.bound? q tree.box = some bound)
    (same : tree.neighbors metric q ~ all) (k : Nat) :
    ∃ found dropped,
      run agenda metric q (agenda.insert ⟨bound, tree⟩ agenda.empty) (.empty k) = some found ∧
        Progress lower k all found dropped [] := by
  refine run_progress distinct (waiting_empty.insert ht hb) ((Progress.start lower k all).perm ?_)
  have root : awaiting agenda metric q (agenda.insert ⟨bound, tree⟩ agenda.empty) ~
      tree.neighbors metric q ++ awaiting agenda metric q agenda.empty :=
    awaiting_insert ⟨bound, tree⟩ agenda.empty
  rw [awaiting_empty, List.append_nil] at root
  exact same.symm.trans root.symm

/-- **What an index answers, whatever the bounds over its tree are**: a shortlist that has dropped all
other neighbours. -/
theorem nearestBy_of_boundsTree {lower : Prop} (built : buildBy? halving config roster = .ok ix)
    (bounds : config.metric.BoundsTree q lower halving config.capacity roster) (agenda : Agenda)
    (k : Nat) :
    ∃ found dropped, ix.nearestBy agenda q k = some found.toList ∧
      Progress lower (min k roster.length) (roster.neighbors config.metric q) found dropped [] := by
  obtain ⟨accepted, rfl⟩ := buildBy?_eq_ok built
  have distinct := roster.distinct_neighbors config.metric q
  by_cases nonempty : roster = []
  · subst nonempty
    refine ⟨.empty 0, [], rfl, ?_⟩
    rw [List.length_nil, Nat.min_zero]
    exact Progress.start lower 0 []
  · obtain ⟨tree, htree, bounded, same⟩ :=
      treeOf?_bounded halving config.capacity accepted nonempty bounds
    obtain ⟨bound, hb, -⟩ := bounded.hasBound
    simp only [nearestBy, htree, hb]
    by_cases hk : k = 0
    · refine ⟨.empty 0, roster.neighbors config.metric q, by rw [if_pos hk]; rfl, ?_⟩
      rw [hk, Nat.zero_min]
      refine (Progress.start lower 0 _).drop_all rfl ?_
      intro _ n _ b hb
      cases hb
    · obtain ⟨found, dropped, e, ended⟩ :=
        run_root_progress agenda distinct bounded hb same (min k roster.length)
      refine ⟨found, dropped, ?_, ended⟩
      rw [if_neg hk]
      show Option.map Shortlist.toList (run agenda config.metric q _ (.empty (min k roster.length))) =
        some found.toList
      rw [e, Option.map_some]

/-- So it answers for a metric that has bounds over all proper boxes. -/
theorem nearestBy_progress {lower : Prop} (built : buildBy? halving config roster = .ok ix)
    (bounds : config.metric.BoundsProper q lower) (agenda : Agenda) (k : Nat) :
    ∃ found dropped, ix.nearestBy agenda q k = some found.toList ∧
      Progress lower (min k roster.length) (roster.neighbors config.metric q) found dropped [] :=
  nearestBy_of_boundsTree built (bounds.boundsTree (buildBy?_eq_ok built).1) agenda k

/-- All clients are found in rank order if all are wanted, whatever the bounds are. -/
theorem nearestBy_of_length_le (built : buildBy? halving config roster = .ok ix)
    (bounds : config.metric.BoundsProper q False) (agenda : Agenda) {k : Nat}
    (enough : roster.length ≤ k) :
    ix.nearestBy agenda q k = some (roster.ranked config.metric q) := by
  obtain ⟨found, dropped, e, ended⟩ := nearestBy_progress built bounds agenda k
  have all := roster.length_neighbors config.metric q
  have ranked := roster.length_ranked config.metric q
  have room : (roster.neighbors config.metric q).length ≤ min k roster.length := by omega
  rw [e, ended.toList_eq_of_length_le (roster.distinct_neighbors config.metric q) room,
    ← Roster.ranked, List.take_of_length_le]
  omega

/-- **The nearest clients**: for a metric that keeps its promise about bounds, an index finds what is
found by measuring all clients, putting them into rank order and taking the first `k`. -/
theorem nearestBy_eq_take {metric : Metric} {leafCapacity : Nat}
    (built : buildBy? halving ⟨metric, .ofNat leafCapacity⟩ roster = .ok ix)
    (contract : metric.BoundsBelow q) (agenda : Agenda) (k : Nat) :
    ix.nearestBy agenda q k = some ((roster.ranked metric q).take (min k roster.length)) := by
  obtain ⟨found, dropped, e, ended⟩ := nearestBy_progress built contract.boundsProper agenda k
  rw [e, ended.toList_eq trivial (roster.distinct_neighbors metric q), Roster.ranked]

/-- Two clients at the same distance up to the sign of zero are found in the order of the input. -/
theorem nearestBy_corners :
    ∃ ix found, buildBy? Halving.sorting ⟨.eastward, .ofNat 0⟩ Roster.corners = .ok ix ∧
      Metric.eastward.BoundsBelow ⟨0.0, 0.0⟩ ∧
      ix.nearestBy Agenda.heap ⟨0.0, 0.0⟩ 2 = some found ∧
      found.map (fun n => n.entry.ordinal) = [1, 2] := by
  have built := buildBy?_of_check Halving.sorting ⟨.eastward, .ofNat 0⟩ Roster.check_corners
  have contract := Metric.eastward_boundsBelow ⟨0.0, 0.0⟩
  refine ⟨_, _, built, contract, nearestBy_eq_take built contract Agenda.heap 2, ?_⟩
  rw [Roster.ranked_corners]
  rfl

end Index

end FleetMatch
