import FleetMatch.Proofs.Engine.History

/-!
# Batches and single queries

A batch takes its index once and counts when all replies are there, while queries one after another look
the engine up and count each for itself.  Nothing in between can tell the two apart.

* `Engine.queryEach`: queries one after another, with the engine that the last one leaves behind.
* `Counters.noteRefusal`: counting a reply only if it is a refusal.
* `query_answer_query` — no query changes the answer to another one.
* `count_eq_foldl` — refusals may be counted one by one, and answers all at once in the end.
* `count_append`, `count_refusal` — counting goes on where it stopped, and a refusal leaves all other
  counts alone.
* `queryEach_eq` — hence what a run of queries replies and counts is told from the engine it began with.
* `batch_eq_queries` — a batch replies and counts like the run, and a refused request in it changes
  nothing for the others.
-/

set_option autoImplicit false

namespace FleetMatch

/-- Counts a reply if it is a refusal. -/
def Counters.noteRefusal (c : Counters) (reply : Reply) : Counters :=
  if reply.isRefusal then c.addRejected 1 else c

namespace Engine

variable (e : Engine)

/-- Replies to requests one after another, and the engine that the last of them leaves behind. -/
def queryEach (e : Engine) : List Request → List Reply × Engine
  | [] => ([], e)
  | r :: rest =>
    let done := e.query r
    let more := queryEach done.engine rest
    (done.answer :: more.1, more.2)

/-- **No query changes the answer to another one.** -/
theorem query_answer_query (r s : Request) : ((e.query s).engine.query r).answer = (e.query r).answer :=
  rfl

/-! ## Counting -/

theorem count_nil (c : Counters) : count c [] = c := by
  simp [count, Counters.addQueries, Counters.addRejected]

/-- Refusals may be counted as they come, and answers all at once in the end. -/
theorem count_eq_foldl (c : Counters) (replies : List Reply) : count c replies =
    (replies.foldl Counters.noteRefusal c).addQueries (replies.countP Reply.isAnswer) := by
  have refusals : replies.foldl Counters.noteRefusal c =
      c.addRejected (replies.countP Reply.isRefusal) := by
    induction replies generalizing c with
    | nil => simp [Counters.addRejected]
    | cons reply rest ih =>
      rw [List.foldl_cons, ih, List.countP_cons, Counters.noteRefusal]
      by_cases refused : reply.isRefusal = true
      · simp only [refused, if_true, Counters.addRejected, UInt64.ofNat_add, UInt64.add_assoc,
          UInt64.add_comm (UInt64.ofNat 1)]
      · simp only [refused, Bool.false_eq_true, if_false, Nat.add_zero]
  rw [refusals]
  rfl

/-- Counting goes on where it stopped. -/
theorem count_append (c : Counters) (before after : List Reply) :
    count c (before ++ after) = count (count c before) after := by
  simp only [count, Counters.addQueries, Counters.addRejected, List.countP_append, UInt64.ofNat_add,
    UInt64.add_assoc]

/-- A refusal is counted as such and leaves all other counts alone, wherever it stands. -/
theorem count_refusal (c : Counters) (before after : List Reply) (err : QueryError) :
    count c (before ++ .error err :: after) = (count c (before ++ after)).addRejected 1 := by
  have none : Reply.isAnswer (.error err) = false := rfl
  have one : Reply.isRefusal (.error err) = true := rfl
  simp only [count, Counters.addQueries, Counters.addRejected, List.countP_append, List.countP_cons,
    none, one, Bool.false_eq_true, if_false, if_true, Nat.add_zero, UInt64.ofNat_add, UInt64.add_assoc]

/-! ## One after another -/

/-- What a run of queries replies and counts is told from the engine it began with. -/
theorem queryEach_eq (rs : List Request) : e.queryEach rs =
    (rs.map fun r => (e.query r).answer,
      { e with counters := count e.counters (rs.map fun r => (e.query r).answer) }) := by
  induction rs generalizing e with
  | nil => rw [queryEach, List.map_nil, count_nil]
  | cons r rest ih =>
    have same : (rest.map fun s => ((e.query r).engine.query s).answer) =
        rest.map fun s => (e.query s).answer := by
      refine List.map_congr_left ?_
      intro s _
      exact query_answer_query e s r
    have counted : (e.query r).engine = { e with counters := count e.counters [(e.query r).answer] } := rfl
    rw [queryEach, ih, same, counted, List.map_cons, ← count_append]
    rfl

/-- A request that is refused leaves the engine as it is but for the refusal that is counted. -/
theorem batch_refused (before after : List Request) {r : Request} (unfit : r.isUnfit = true) :
    (e.batch (before ++ r :: after)).answer =
        (e.batch before).answer ++ (e.query r).answer :: (e.batch after).answer ∧
      (e.batch (before ++ r :: after)).engine =
        { e with counters := (e.batch (before ++ after)).engine.counters.addRejected 1 } := by
  have refused := Reply.isRefusal_replyFrom r e.index
  rw [unfit] at refused
  refine ⟨List.map_append, ?_⟩
  cases reply : r.replyFrom e.index with
  | ok found =>
    rw [reply] at refused
    cases refused
  | error err =>
    show Engine.mk e.current (count e.counters ((before ++ r :: after).map _)) = Engine.mk e.current
      ((count e.counters ((before ++ after).map _)).addRejected 1)
    rw [List.map_append, List.map_cons, reply, count_refusal, ← List.map_append]

/-- **A batch is its queries one by one.**  Every reply is the one that its request alone would get from
the same engine, and the engine left behind is the one that the queries leave behind one after another,
counters included, although a batch counts refusals as they come and answers all at once.  A request
that is refused is counted as refused; the replies to the requests around it, and what is counted for
them, are those of the batch without it. -/
theorem batch_eq_queries (rs : List Request) :
    (e.batch rs).answer = rs.map (fun r => (e.query r).answer) ∧
      ((e.batch rs).answer, (e.batch rs).engine) = e.queryEach rs ∧
      (e.batch rs).engine.counters = ((e.batch rs).answer.foldl Counters.noteRefusal e.counters).addQueries
        ((e.batch rs).answer.countP Reply.isAnswer) ∧
      ∀ before r after, rs = before ++ r :: after → r.isUnfit = true →
        (e.batch rs).answer =
            (e.batch before).answer ++ (e.query r).answer :: (e.batch after).answer ∧
          (e.batch rs).engine =
            { e with counters := (e.batch (before ++ after)).engine.counters.addRejected 1 } := by
  refine ⟨rfl, (queryEach_eq e rs).symm, count_eq_foldl e.counters _, ?_⟩
  rintro before r after rfl unfit
  exact batch_refused e before after unfit

end Engine

end FleetMatch
