import FleetMatch.Engine.History

/-!
# What a history accounts for

Counters and versions of an engine have 64 bits and wrap.  As long as fewer than `2 ^ 64` requests and
swaps have happened, an engine can account for all of them.

* `Tallies`: the statistics that a history leads to.
* `Answer.Fits`: the answer to a call, told from the history before it and the index it came upon.
* `Account`: what holds of a history and the engine it leads to.
* `perform_counters`, `perform_current` — what one call does to an engine.
* `Account.extend` — one more call keeps the account.
* `run_account` — hence every history is accounted for.
-/

set_option autoImplicit false

namespace FleetMatch

/-- A request that is refused. -/
def Request.isUnfit (r : Request) : Bool := !r.place.isFinite || r.k == 0

/-- The statistics that a history leads to. -/
structure Tallies (start : Index) (h : History) (s : Stats) : Prop where
  queries : s.counters.queries.toNat = h.replies.countP Reply.isAnswer
  rejected : s.counters.rejected.toNat = h.requests.countP Request.isUnfit
  swaps : s.counters.swaps.toNat = h.swapped.length
  emptySwaps : s.counters.emptySwaps.toNat = h.swapped.countP Index.isEmpty
  version : s.version.toNat = h.swapped.length
  clients : ∃ ix, (h.lineage start)[h.swapped.length]? = some ix ∧ s.clients = ix.size

/-- The answer to a call that comes upon the index `now` after the history `before`. -/
def Answer.Fits (start : Index) (before : History) (now : Index) : Call → Answer → Prop
  | .query r, .reply got => got = r.replyFrom now
  | .queryVersioned r, .versioned got =>
    ∃ version : UInt64, version.toNat = before.swapped.length ∧
      got = (r.replyFrom now).map fun found => (version, found)
  | .batch rs, .replies got => got = rs.map fun r => r.replyFrom now
  | .swap _, .previous ix => ix = now
  | .swapVersioned _, .swapped s =>
    s.version.toNat = before.swapped.length + 1 ∧ s.previous = now
  | .snapshot, .index ix => ix = now
  | .current, .current s => s.version.toNat = before.swapped.length ∧ s.index = now
  | .stats, .stats s => Tallies start before s
  | _, _ => False

/-- What holds of a history and the engine it leads to. -/
structure Account (start : Index) (h : History) (e : Engine) : Prop where
  /-- The version counts the swaps, and the current index is the last one. -/
  version : e.version.toNat = h.swapped.length
  index : (h.lineage start)[h.swapped.length]? = some e.index
  stats : Tallies start h e.stats
  /-- A swap hands back the index before its own, and tells the version of its own. -/
  swaps : ∀ i version? previous, h.replaced[i]? = some (version?, previous) →
    (h.lineage start)[i]? = some previous ∧
      ∀ version ∈ version?, version.toNat = i + 1
  /-- What was handed back and what is current is all there has been. -/
  handed : h.replaced.map Prod.snd ++ [e.index] = h.lineage start
  /-- An answer with a version comes from the index of that version. -/
  tagged : ∀ r version found, (Call.queryVersioned r, Answer.versioned (.ok (version, found))) ∈ h →
    ∃ ix, (h.lineage start)[version.toNat]? = some ix ∧ found = ix.nearest r.place r.k
  /-- Every answer fits what had happened before it. -/
  answers : ∀ (before : History) call answer after, h = before ++ (call, answer) :: after →
    ∃ now, (h.lineage start)[before.swapped.length]? = some now ∧
      answer.Fits start before now call
  /-- Versions that are told never go down. -/
  versions : h.versions.Pairwise (· ≤ ·)
  seen : ∀ version ∈ h.versions, version ≤ e.version
  replied : h.replies.length = h.requests.length

/-! ## One call -/

theorem Reply.isRefusal_replyFrom (r : Request) (ix : Index) :
    Reply.isRefusal (r.replyFrom ix) = r.isUnfit := by
  unfold Request.replyFrom Request.check Request.isUnfit
  by_cases hp : r.place.isFinite = true
  · by_cases hk : r.k = 0
    · simp [hp, hk, Reply.isRefusal]
    · have : (r.k == 0) = false := by simp [hk]
      simp only [hp, hk, this, if_true, if_false]
      cases ix.nearest r.place r.k <;> rfl
  · simp [hp, Reply.isRefusal]

namespace Engine

variable (e : Engine) (call : Call)

theorem toReplies_perform :
    (e.perform call).1.toReplies = call.requests.map fun r => r.replyFrom e.index := by
  cases call with
  | queryVersioned r =>
    show [((r.replyFrom e.index).map fun found => (e.version, found)).map Prod.snd] = _
    cases h : r.replyFrom e.index <;> simp [Call.requests, Except.map, h]
  | _ => rfl

theorem perform_current : (e.perform call).2.current =
    (call.swapped?.map (Snapshot.mk (e.version + 1))).getD e.current := by
  cases call <;> rfl

theorem perform_counters : (e.perform call).2.counters =
    (call.swapped?.map fun ix => e.counters.addSwap ix.isEmpty).getD
      (count e.counters (e.perform call).1.toReplies) := by
  cases call with
  | queryVersioned r =>
    show count e.counters [r.replyFrom e.index] =
      count e.counters (e.perform (.queryVersioned r)).1.toReplies
    rw [toReplies_perform]
    rfl
  | snapshot | current | stats =>
    show e.counters = count e.counters []
    simp [count, Counters.addQueries, Counters.addRejected]
  | _ => rfl

theorem replaced?_perform : ∃ version?,
    (e.perform call).1.replaced? = call.swapped?.map (fun _ => (version?, e.index)) ∧
      ∀ version ∈ version?, version = e.version + 1 := by
  cases call with
  | swapVersioned ix => exact ⟨some (e.version + 1), rfl, fun _ h => (Option.mem_some.1 h).symm⟩
  | _ => exact ⟨none, rfl, fun _ h => by cases h⟩

theorem version?_perform :
    ∀ version ∈ (e.perform call).1.version?, version = (e.perform call).2.version := by
  intro version hv
  cases call with
  | queryVersioned r =>
    have : Answer.version? (.versioned ((r.replyFrom e.index).map fun found => (e.version, found))) =
      some version := hv
    cases h : r.replyFrom e.index with
    | error err => simp [h, Except.map, Answer.version?] at this
    | ok found =>
      simp [h, Except.map, Answer.version?] at this
      exact this.symm
  | swapVersioned ix => exact (Option.mem_some.1 hv).symm
  | current => exact (Option.mem_some.1 hv).symm
  | stats => exact (Option.mem_some.1 hv).symm
  | _ => cases hv

end Engine

/-! ## One more entry -/

namespace History

variable (h : History) (call : Call) (answer : Answer)

theorem requests_concat : requests (h ++ [(call, answer)]) = h.requests ++ call.requests := by
  simp [requests]

theorem replies_concat : replies (h ++ [(call, answer)]) = h.replies ++ answer.toReplies := by
  simp [replies]

theorem swapped_concat :
    swapped (h ++ [(call, answer)]) = h.swapped ++ call.swapped?.toList := by
  simp only [swapped, List.filterMap_append]
  cases hs : call.swapped? <;> simp [hs]

theorem replaced_concat :
    replaced (h ++ [(call, answer)]) = h.replaced ++ answer.replaced?.toList := by
  simp only [replaced, List.filterMap_append]
  cases hs : answer.replaced? <;> simp [hs]

theorem versions_concat :
    versions (h ++ [(call, answer)]) = h.versions ++ answer.version?.toList := by
  simp only [versions, List.filterMap_append]
  cases hs : answer.version? <;> simp [hs]

theorem lineage_concat (start : Index) : lineage (h ++ [(call, answer)]) start =
    h.lineage start ++ call.swapped?.toList := by
  rw [lineage, swapped_concat]
  rfl

/-- Indexes keep their places in the lineage. -/
theorem getElem?_lineage_concat {start ix : Index} {i : Nat}
    (hi : (h.lineage start)[i]? = some ix) :
    (lineage (h ++ [(call, answer)]) start)[i]? = some ix := by
  obtain ⟨hlt, _⟩ := List.getElem?_eq_some_iff.1 hi
  rw [lineage_concat, List.getElem?_append_left hlt]
  exact hi

end History

/-- Below its limit a counter counts. -/
theorem Counters.toNat_add {a : UInt64} {m n : Nat} (ha : a.toNat = m) (few : m + n < UInt64.size) :
    (a + UInt64.ofNat n).toNat = m + n := by
  rw [UInt64.toNat_add, UInt64.toNat_ofNat', ha]
  simp only [UInt64.size] at few
  omega

/-! ## One more call -/

theorem Call.requests_of_swapped? {call : Call} {ix : Index} (h : call.swapped? = some ix) :
    call.requests = [] := by
  cases call <;> first | rfl | cases h

theorem Reply.countP_isRefusal (rs : List Request) (ix : Index) :
    (rs.map fun r => r.replyFrom ix).countP Reply.isRefusal = rs.countP Request.isUnfit := by
  rw [List.countP_map]
  refine List.countP_congr ?_
  intro r _
  show Reply.isRefusal (r.replyFrom ix) = true ↔ r.isUnfit = true
  rw [Reply.isRefusal_replyFrom]

namespace Account

open History

variable {start : Index} {h : History} {e : Engine} (account : Account start h e) (call : Call)

include account

theorem length_replaced : h.replaced.length = h.swapped.length := by
  have := congrArg List.length account.handed
  simp only [lineage, List.length_append, List.length_map, List.length_cons,
    List.length_nil] at this
  omega

theorem version_extend (few : (h.swapped ++ call.swapped?.toList).length < UInt64.size) :
    (e.perform call).2.version.toNat = (h.swapped ++ call.swapped?.toList).length := by
  rw [List.length_append] at few ⊢
  rw [Engine.version, Engine.perform_current]
  cases hs : call.swapped? with
  | none => exact account.version
  | some ix =>
    rw [hs] at few
    exact Counters.toNat_add account.version few

theorem index_extend : (h.lineage start ++ call.swapped?.toList)[(h.swapped ++
    call.swapped?.toList).length]? = some (e.perform call).2.index := by
  rw [Engine.index, Engine.perform_current]
  cases hs : call.swapped? with
  | none =>
    rw [Option.toList_none, List.append_nil, List.append_nil]
    exact account.index
  | some ix =>
    have : (h.swapped ++ [ix]).length = (h.lineage start).length := by simp [lineage]
    rw [Option.toList_some, this, List.getElem?_concat_length]
    rfl

theorem handed_extend : (h.replaced ++ (e.perform call).1.replaced?.toList).map Prod.snd ++
    [(e.perform call).2.index] = h.lineage start ++ call.swapped?.toList := by
  obtain ⟨version?, replaced, -⟩ := Engine.replaced?_perform e call
  rw [Engine.index, Engine.perform_current, replaced, ← account.handed]
  cases hs : call.swapped? with
  | none => simp [Engine.index]
  | some ix => simp

theorem queries_extend (few : (h.requests ++ call.requests).length < UInt64.size) :
    (e.perform call).2.counters.queries.toNat =
      (h.replies ++ (e.perform call).1.toReplies).countP Reply.isAnswer := by
  have replied := account.replied
  have old := List.countP_le_length (p := Reply.isAnswer) (l := h.replies)
  have new := List.countP_le_length (p := Reply.isAnswer) (l := (e.perform call).1.toReplies)
  have length : (e.perform call).1.toReplies.length = call.requests.length := by
    rw [Engine.toReplies_perform, List.length_map]
  rw [List.length_append] at few
  rw [Engine.perform_counters, List.countP_append]
  cases hs : call.swapped? with
  | none => exact Counters.toNat_add account.stats.queries (by omega)
  | some ix =>
    rw [Engine.toReplies_perform, Call.requests_of_swapped? hs]
    exact account.stats.queries

theorem rejected_extend (few : (h.requests ++ call.requests).length < UInt64.size) :
    (e.perform call).2.counters.rejected.toNat =
      (h.requests ++ call.requests).countP Request.isUnfit := by
  have old := List.countP_le_length (p := Request.isUnfit) (l := h.requests)
  have new := List.countP_le_length (p := Request.isUnfit) (l := call.requests)
  rw [List.length_append] at few
  rw [Engine.perform_counters, Engine.toReplies_perform, List.countP_append]
  cases hs : call.swapped? with
  | none =>
    rw [← Reply.countP_isRefusal call.requests e.index] at new ⊢
    exact Counters.toNat_add account.stats.rejected (by omega)
  | some ix =>
    rw [Call.requests_of_swapped? hs]
    exact account.stats.rejected

theorem swaps_extend (few : (h.swapped ++ call.swapped?.toList).length < UInt64.size) :
    (e.perform call).2.counters.swaps.toNat = (h.swapped ++ call.swapped?.toList).length := by
  rw [List.length_append] at few ⊢
  rw [Engine.perform_counters]
  cases hs : call.swapped? with
  | none => exact account.stats.swaps
  | some ix =>
    rw [hs] at few
    exact Counters.toNat_add account.stats.swaps few

theorem emptySwaps_extend (few : (h.swapped ++ call.swapped?.toList).length < UInt64.size) :
    (e.perform call).2.counters.emptySwaps.toNat =
      (h.swapped ++ call.swapped?.toList).countP Index.isEmpty := by
  have old := List.countP_le_length (p := Index.isEmpty) (l := h.swapped)
  rw [List.length_append] at few
  rw [Engine.perform_counters, List.countP_append]
  cases hs : call.swapped? with
  | none => exact account.stats.emptySwaps
  | some ix =>
    rw [hs] at few
    have before := account.stats.emptySwaps
    cases empty : ix.isEmpty with
    | false => simpa [empty, Counters.addSwap, Engine.stats] using before
    | true =>
      simp only [Option.toList_some, List.length_cons, List.length_nil] at few
      have grown := Counters.toNat_add (n := 1) before (by omega)
      simpa [empty, Counters.addSwap, Engine.stats] using grown

theorem tallies_extend (few : (h.requests ++ call.requests).length +
    (h.swapped ++ call.swapped?.toList).length < UInt64.size) :
    Tallies start (h ++ [(call, (e.perform call).1)]) (e.perform call).2.stats := by
  have fewRequests : (h.requests ++ call.requests).length < UInt64.size := by omega
  have fewSwaps : (h.swapped ++ call.swapped?.toList).length < UInt64.size := by omega
  refine ⟨?_, ?_, ?_, ?_, ?_, (e.perform call).2.index, ?_, rfl⟩
  · rw [replies_concat]
    exact account.queries_extend call fewRequests
  · rw [requests_concat]
    exact account.rejected_extend call fewRequests
  · rw [swapped_concat]
    exact account.swaps_extend call fewSwaps
  · rw [swapped_concat]
    exact account.emptySwaps_extend call fewSwaps
  · rw [swapped_concat]
    exact account.version_extend call fewSwaps
  · rw [swapped_concat, lineage_concat]
    exact account.index_extend call

theorem replaced_extend (few : (h.swapped ++ call.swapped?.toList).length < UInt64.size) :
    ∀ i version? previous,
      (h.replaced ++ (e.perform call).1.replaced?.toList)[i]? = some (version?, previous) →
        (History.lineage (h ++ [(call, (e.perform call).1)]) start)[i]? = some previous ∧
          ∀ version ∈ version?, version.toNat = i + 1 := by
  intro i version? previous hi
  by_cases old : i < h.replaced.length
  · rw [List.getElem?_append_left old] at hi
    obtain ⟨found, told⟩ := account.swaps i version? previous hi
    exact ⟨getElem?_lineage_concat h call _ found, told⟩
  · rw [List.getElem?_append_right (by omega)] at hi
    obtain ⟨version?', replaced, told⟩ := Engine.replaced?_perform e call
    rw [replaced] at hi
    cases hs : call.swapped? with
    | none => simp [hs] at hi
    | some ix =>
      rw [hs, Option.map_some, Option.toList_some, List.getElem?_singleton] at hi
      split at hi
      · rename_i at_end
        cases hi
        have place : i = h.swapped.length := by
          rw [← account.length_replaced]
          omega
        subst place
        refine ⟨getElem?_lineage_concat h call _ account.index, ?_⟩
        intro version hv
        rw [told version hv]
        rw [hs, List.length_append] at few
        exact Counters.toNat_add account.version few
      · cases hi

theorem fits (few : (h.swapped ++ call.swapped?.toList).length < UInt64.size) :
    (e.perform call).1.Fits start h e.index call := by
  cases call with
  | query r => rfl
  | queryVersioned r => exact ⟨e.version, account.version, rfl⟩
  | batch rs => rfl
  | swap ix => rfl
  | swapVersioned ix =>
    rw [List.length_append] at few
    exact ⟨Counters.toNat_add account.version few, rfl⟩
  | snapshot => rfl
  | current => exact ⟨account.version, rfl⟩
  | stats => exact account.stats

theorem answers_extend (few : (h.swapped ++ call.swapped?.toList).length < UInt64.size) :
    ∀ (before : History) call' answer after,
      h ++ [(call, (e.perform call).1)] = before ++ (call', answer) :: after →
        ∃ now, (History.lineage (h ++ [(call, (e.perform call).1)]) start)[before.swapped.length]? =
          some now ∧ answer.Fits start before now call' := by
  intro before call' answer after split
  rcases after.eq_nil_or_concat with none | ⟨after', last, more⟩
  · subst none
    obtain ⟨same, entry⟩ := List.append_inj' split rfl
    subst same
    cases entry
    exact ⟨e.index, getElem?_lineage_concat h call _ account.index, account.fits call few⟩
  · rw [more, List.concat_eq_append, show before ++ (call', answer) :: (after' ++ [last]) =
      (before ++ (call', answer) :: after') ++ [last] by simp] at split
    obtain ⟨now, found, fits⟩ := account.answers before call' answer after'
      (List.append_inj' split rfl).1
    exact ⟨now, getElem?_lineage_concat h call _ found, fits⟩

omit account in
/-- An answer with a version fits the index of that version. -/
theorem tagged_of_answers
    (answers : ∀ (before : History) call answer after, h = before ++ (call, answer) :: after →
      ∃ now, (h.lineage start)[before.swapped.length]? = some now ∧
        answer.Fits start before now call) :
    ∀ r version found, (Call.queryVersioned r, Answer.versioned (.ok (version, found))) ∈ h →
      ∃ ix, (h.lineage start)[version.toNat]? = some ix ∧ found = ix.nearest r.place r.k := by
  intro r version found hm
  obtain ⟨before, after, split⟩ := List.append_of_mem hm
  obtain ⟨now, current, version', told, got⟩ := answers before _ _ after split
  unfold Request.replyFrom at got
  cases hc : r.check with
  | error err => simp [hc, Except.map] at got
  | ok _ =>
    simp only [hc, Except.map, Except.ok.injEq, Prod.mk.injEq] at got
    obtain ⟨rfl, rfl⟩ := got
    exact ⟨now, told ▸ current, rfl⟩

theorem versions_extend (few : (h.swapped ++ call.swapped?.toList).length < UInt64.size) :
    (h.versions ++ (e.perform call).1.version?.toList).Pairwise (· ≤ ·) ∧
      ∀ version ∈ h.versions ++ (e.perform call).1.version?.toList,
        version ≤ (e.perform call).2.version := by
  have grows : e.version ≤ (e.perform call).2.version := by
    rw [UInt64.le_iff_toNat_le, account.version, account.version_extend call few,
      List.length_append]
    omega
  have new : ∀ version ∈ (e.perform call).1.version?.toList,
      version = (e.perform call).2.version := by
    intro version hv
    exact Engine.version?_perform e call version (Option.mem_toList.1 hv)
  have old : ∀ version ∈ h.versions, version ≤ (e.perform call).2.version := by
    intro version hv
    exact UInt64.le_trans (account.seen version hv) grows
  refine ⟨List.pairwise_append.2 ⟨account.versions, ?_, ?_⟩, ?_⟩
  · cases (e.perform call).1.version? with
    | none => exact List.Pairwise.nil
    | some version => exact List.pairwise_singleton _ version
  · intro v hv w hw
    rw [new w hw]
    exact old v hv
  · intro version hv
    rcases List.mem_append.1 hv with hv | hv
    · exact old version hv
    · rw [new version hv]
      exact UInt64.le_refl _

/-- **One more call keeps the account.** -/
theorem extend (few : (h.requests ++ call.requests).length +
    (h.swapped ++ call.swapped?.toList).length < UInt64.size) :
    Account start (h ++ [(call, (e.perform call).1)]) (e.perform call).2 := by
  have fewSwaps : (h.swapped ++ call.swapped?.toList).length < UInt64.size := by omega
  have answers := account.answers_extend call fewSwaps
  obtain ⟨versions, seen⟩ := account.versions_extend call fewSwaps
  refine ⟨?_, ?_, account.tallies_extend call few, ?_, ?_, tagged_of_answers answers, answers, ?_,
    ?_, ?_⟩
  · rw [swapped_concat]
    exact account.version_extend call fewSwaps
  · rw [swapped_concat, lineage_concat]
    exact account.index_extend call
  · rw [replaced_concat]
    exact account.replaced_extend call fewSwaps
  · rw [replaced_concat, lineage_concat]
    exact account.handed_extend call
  · rw [versions_concat]
    exact versions
  · rw [versions_concat]
    exact seen
  · rw [replies_concat, requests_concat, List.length_append, List.length_append,
      Engine.toReplies_perform, List.length_map, account.replied]

omit account in
theorem start_account (start : Index) : Account start [] (Engine.start start) where
  version := rfl
  index := rfl
  stats := ⟨rfl, rfl, rfl, rfl, rfl, start, rfl, rfl⟩
  swaps := by
    intro i version? previous hi
    cases hi
  handed := rfl
  tagged := by
    intro r version found hm
    cases hm
  answers := by
    intro before call answer after split
    simp at split
  versions := List.Pairwise.nil
  seen := by
    intro version hv
    cases hv
  replied := rfl

end Account

/-! ## Whole histories -/

namespace Course

variable {start : Index}

theorem foldl_account (calls : List Call) {course : Course}
    (account : Account start course.history course.engine)
    (few : (course.history.requests ++ calls.flatMap Call.requests).length +
      (course.history.swapped ++ calls.filterMap Call.swapped?).length < UInt64.size) :
    (calls.foldl extend course).history.map Prod.fst = course.history.map Prod.fst ++ calls ∧
      Account start (calls.foldl extend course).history (calls.foldl extend course).engine := by
  induction calls generalizing course with
  | nil => exact ⟨(List.append_nil _).symm, account⟩
  | cons call rest ih =>
    have swapped : (call :: rest).filterMap Call.swapped? =
        call.swapped?.toList ++ rest.filterMap Call.swapped? := by
      cases hs : call.swapped? <;> simp [hs]
    simp only [List.flatMap_cons, swapped, List.length_append] at few
    have next : Account start (course.extend call).history (course.extend call).engine :=
      account.extend call (by simp only [List.length_append]; omega)
    have requests : (course.extend call).history.requests =
        course.history.requests ++ call.requests := History.requests_concat _ _ _
    have swaps : (course.extend call).history.swapped =
        course.history.swapped ++ call.swapped?.toList := History.swapped_concat _ _ _
    obtain ⟨same, whole⟩ := ih next (by
      simp only [requests, swaps, List.length_append]
      omega)
    refine ⟨?_, whole⟩
    rw [List.foldl_cons, same]
    simp [extend]

/-- **Every history is accounted for**: with fewer than `2 ^ 64` requests and swaps, whatever is asked
of an engine and in whatever order. -/
theorem run_account (start : Index) (calls : List Call)
    (few : (calls.flatMap Call.requests).length + (calls.filterMap Call.swapped?).length < UInt64.size) :
    (run start calls).history.map Prod.fst = calls ∧
      Account start (run start calls).history (run start calls).engine :=
  foldl_account calls (Account.start_account start) few

/-- Two requests that are refused, and two swaps of which the second one is empty. -/
theorem rounds_account :
    let first : Index := .empty .euclidean
    let second : Index := ⟨.euclidean, .ofNat 1, [⟨.number 1, ⟨0.0, 0.0⟩, []⟩],
      some (.leaf [⟨0, .number 1, ⟨0.0, 0.0⟩, []⟩] (Box.ofPoint ⟨0.0, 0.0⟩))⟩
    let calls : List Call := [.queryVersioned ⟨⟨0.0, 0.0⟩, 2, .number 7⟩, .swap second,
      .batch [⟨⟨0.0, 0.0⟩, 0, .number 7⟩, ⟨⟨1.0, 0.0⟩, 1, .number 8⟩], .swapVersioned first,
      .query ⟨⟨0.0 / 0.0, 0.0⟩, 1, .number 7⟩, .stats]
    (calls.flatMap Call.requests).length + (calls.filterMap Call.swapped?).length < UInt64.size ∧
      (run first calls).engine.version.toNat = 2 ∧
      (run first calls).engine.stats.counters.rejected.toNat = 2 ∧
      (run first calls).engine.stats.counters.emptySwaps.toNat = 1 := by
  intro first second calls
  have few : (calls.flatMap Call.requests).length +
      (calls.filterMap Call.swapped?).length < UInt64.size := by decide
  have account := (run_account first calls few).2
  refine ⟨few, account.version, account.stats.rejected, account.stats.emptySwaps⟩

end Course

end FleetMatch
