import FleetMatch.Index.Build
import Mathlib.Data.List.Nodup

/-!
# What the check of a roster finds

The check walks over a roster once, with a map from the identifiers it has seen to their positions, and
stops at the first client that breaks a rule.

* `Checked`: what the check knows of the clients that it has passed.
* `Fault`: the error that names what is wrong with a client.
* `Verdict`: what holds of an outcome of the check.
* `Checked.snoc` — one more client that breaks no rule.
* `Checked.verdict` — the outcome of the check from any position on.
* `check_verdict` — the check accepts exactly the rosters without a fault, and otherwise names the first
  one; an index is built of exactly the rosters that are accepted, and holds them as they are.
-/

set_option autoImplicit false

namespace FleetMatch

namespace Roster

/-! ## Rules and faults -/

/-- The identifier at a position. -/
def idAt? (roster : Roster) (i : Nat) : Option ClientId := roster[i]?.map Client.id

/-- All places are finite, and no identifier stands at two positions. -/
def Faultless (roster : Roster) : Prop :=
  (∀ client ∈ roster, client.place.isFinite = true) ∧ (roster.map Client.id).Nodup

/-- The client at a position breaks a rule: its place is not finite, or its identifier stands at an
earlier position too. -/
def BreaksAt (roster : Roster) (i : Nat) (client : Client) : Prop :=
  roster[i]? = some client ∧
    (client.place.isFinite = false ∨ ∃ j < i, roster.idAt? j = some client.id)

/-- The error that names what is wrong with the client at a position.  Its place comes first: only of a
client at a finite place it is said that its identifier is a repeated one. -/
inductive Fault (roster : Roster) (i : Nat) (client : Client) : RosterError → Prop
  | notFinite (infinite : client.place.isFinite = false) :
      Fault roster i client (.notFinite client.id.display i client.place)
  | duplicate {first : Nat} (finite : client.place.isFinite = true) (earlier : first < i)
      (same : roster.idAt? first = some client.id)
      (only : ∀ j < i, roster.idAt? j = some client.id → j = first) :
      Fault roster i client (.duplicate client.id.display first i)

/-- What holds of an outcome of the check. -/
structure Verdict (roster : Roster) (outcome : Except RosterError Unit) : Prop where
  accepted_iff : outcome = .ok () ↔ roster.Faultless
  /-- A refusal names the first client that breaks a rule, and what is wrong with it. -/
  refused : ∀ err, outcome = .error err → ∃ i client, roster.BreaksAt i client ∧
    (∀ j < i, ∀ earlier, ¬ roster.BreaksAt j earlier) ∧ roster.Fault i client err

variable {roster before rest : Roster} {client : Client} {i : Nat}

theorem mem_ids_iff {id : ClientId} : id ∈ roster.map Client.id ↔ ∃ i, roster.idAt? i = some id := by
  simp only [List.mem_iff_getElem?, List.getElem?_map, idAt?]

theorem idAt?_append_of_lt (h : i < before.length) (rest : Roster) :
    idAt? (before ++ rest) i = idAt? before i := by
  simp only [idAt?]
  rw [List.getElem?_append_left h]

theorem lt_of_idAt? {id : ClientId} (h : roster.idAt? i = some id) : i < roster.length := by
  obtain ⟨client, held, -⟩ := Option.map_eq_some_iff.1 h
  exact (List.getElem?_eq_some_iff.1 held).1

theorem eq_of_idAt? (distinct : (roster.map Client.id).Nodup) {j : Nat} {id : ClientId}
    (hi : roster.idAt? i = some id) (hj : roster.idAt? j = some id) : i = j := by
  have short := lt_of_idAt? hi
  simp only [idAt?, ← List.getElem?_map] at hi hj
  apply (List.getElem?_inj (by rwa [List.length_map]) distinct).1
  rw [hi, hj]

/-- In a faultless roster nobody breaks a rule. -/
theorem Faultless.not_breaksAt (h : roster.Faultless) : ¬ roster.BreaksAt i client := by
  rintro ⟨held, infinite | ⟨j, earlier, same⟩⟩
  · have finite := h.1 client (List.mem_of_getElem? held)
    simp [infinite] at finite
  · have own : roster.idAt? i = some client.id := by simp [idAt?, held]
    have := eq_of_idAt? h.2 own same
    omega

/-- What stands before a position breaks the rules there as it does among all clients. -/
theorem breaksAt_append_of_lt (h : i < before.length) :
    BreaksAt (before ++ rest) i client ↔ BreaksAt before i client := by
  have held : (before ++ rest)[i]? = before[i]? := List.getElem?_append_left h
  have ids : ∀ j < i, idAt? (before ++ rest) j = idAt? before j := by
    intro j hj
    exact idAt?_append_of_lt (by omega) rest
  simp only [BreaksAt, held]
  refine and_congr_right fun _ => or_congr_right ?_
  constructor
  · rintro ⟨j, hj, same⟩
    exact ⟨j, hj, (ids j hj).symm.trans same⟩
  · rintro ⟨j, hj, same⟩
    exact ⟨j, hj, (ids j hj).trans same⟩

/-! ## The walk of the check -/

/-- The clients before a position break no rule, and the map holds their identifiers with the positions
at which they stand. -/
structure Checked (before : Roster) (seen : Std.TreeMap ClientId Nat) : Prop where
  faultless : before.Faultless
  seen_iff : ∀ id i, seen[id]? = some i ↔ before.idAt? i = some id

variable {seen : Std.TreeMap ClientId Nat}

theorem Checked.nil : Checked [] ∅ := by
  constructor
  · exact ⟨nofun, List.nodup_nil⟩
  · simp [idAt?]

theorem Checked.not_mem (h : Checked before seen) (unseen : seen[client.id]? = none) :
    client.id ∉ before.map Client.id := by
  intro repeated
  obtain ⟨i, held⟩ := mem_ids_iff.1 repeated
  have found := (h.seen_iff client.id i).2 held
  simp [unseen] at found

theorem Checked.snoc (h : Checked before seen) (finite : client.place.isFinite = true)
    (unseen : seen[client.id]? = none) :
    Checked (before ++ [client]) (seen.insert client.id before.length) := by
  have fresh := h.not_mem unseen
  constructor
  · constructor
    · intro other held
      rcases List.mem_append.1 held with held | held
      · exact h.faultless.1 other held
      · rw [List.mem_singleton.1 held]
        exact finite
    · rw [List.map_append, List.map_singleton, List.nodup_append]
      refine ⟨h.faultless.2, List.nodup_singleton _, ?_⟩
      rintro id held _ own rfl
      rw [List.mem_singleton.1 own] at held
      exact fresh held
  · intro id i
    rw [Std.TreeMap.getElem?_insert]
    by_cases own : client.id = id
    · subst own
      have last : idAt? (before ++ [client]) before.length = some client.id := by simp [idAt?]
      rw [if_pos Std.ReflCmp.compare_self]
      constructor
      · rintro ⟨⟩
        exact last
      · intro held
        by_cases short : i < before.length
        · rw [idAt?_append_of_lt short] at held
          exact absurd (mem_ids_iff.2 ⟨i, held⟩) fresh
        · have := lt_of_idAt? held
          rw [List.length_append, List.length_singleton] at this
          rw [show i = before.length by omega]
    · have other : compare client.id id ≠ .eq := fun same => own (Std.LawfulEqOrd.eq_of_compare same)
      rw [if_neg other, h.seen_iff]
      by_cases short : i < before.length
      · rw [idAt?_append_of_lt short]
      · have missing : before.idAt? i = none := by simp [idAt?, Nat.le_of_not_lt short]
        rw [missing]
        constructor
        · nofun
        · intro held
          have := lt_of_idAt? held
          rw [List.length_append, List.length_singleton] at this
          rw [show i = before.length by omega] at held
          simp [idAt?, own] at held

/-- A fault of the next client is the first one. -/
theorem Checked.refused (h : Checked before seen) {err : RosterError}
    (breaks : BreaksAt (before ++ client :: rest) before.length client)
    (fault : Fault (before ++ client :: rest) before.length client err) :
    Verdict (before ++ client :: rest) (.error err) := by
  constructor
  · constructor
    · nofun
    · intro faultless
      exact absurd breaks faultless.not_breaksAt
  · rintro _ ⟨⟩
    refine ⟨before.length, client, breaks, ?_, fault⟩
    intro j hj earlier
    rw [breaksAt_append_of_lt hj]
    exact h.faultless.not_breaksAt

/-- **The check from any position on**, if no client before this position breaks a rule. -/
theorem Checked.verdict (h : Checked before seen) (clients : Roster) :
    Verdict (before ++ clients) (checkFrom before.length seen clients) := by
  induction clients generalizing before seen with
  | nil =>
    rw [List.append_nil]
    constructor
    · exact iff_of_true rfl h.faultless
    · nofun
  | cons client rest ih =>
    have held : (before ++ client :: rest)[before.length]? = some client := by simp
    unfold checkFrom
    split
    · rename_i finite
      split
      · rename_i first found
        have same := (h.seen_iff client.id first).1 found
        have earlier := lt_of_idAt? same
        have same' := (idAt?_append_of_lt earlier (client :: rest)).trans same
        refine h.refused ⟨held, .inr ⟨first, earlier, same'⟩⟩ (.duplicate finite earlier same' ?_)
        intro j hj held'
        rw [idAt?_append_of_lt hj] at held'
        exact eq_of_idAt? h.faultless.2 held' same
      · rename_i unseen
        have further := ih (h.snoc finite unseen)
        rwa [List.length_append, List.append_assoc] at further
    · rename_i infinite
      have infinite := Bool.eq_false_iff.2 infinite
      exact h.refused ⟨held, .inl infinite⟩ (.notFinite infinite)

/-- **The check finds exactly the first fault**: it accepts a roster if and only if all places are finite
and all identifiers differ, where a number and a name always differ, and otherwise names the first client
that breaks a rule.  An index is refused for the same reason, and else holds the roster unchanged. -/
theorem check_verdict (halving : Halving) (config : IndexConfig) (roster : Roster) :
    Verdict roster roster.check ∧
      (Index.buildBy? halving config roster).map Index.roster = roster.check.map (fun _ => roster) ∧
      ∀ n s, ClientId.number n ≠ ClientId.name s := by
  refine ⟨Checked.nil.verdict roster, ?_, nofun⟩
  unfold Index.buildBy?
  cases roster.check with
  | error err => rfl
  | ok _ => rfl

/-- A repeated identifier at a place that is not finite, after which another one is repeated: the place
is what is named. -/
example : check [⟨.number 1, ⟨0.0, 0.0⟩, []⟩, ⟨.name "1", ⟨0.0, 0.0⟩, []⟩,
    ⟨.number 1, ⟨0.0, 1.0 / 0.0⟩, []⟩, ⟨.name "1", ⟨0.0, 0.0⟩, []⟩] =
      .error (.notFinite "1" 2 ⟨0.0, 1.0 / 0.0⟩) := by
  rfl

end Roster

end FleetMatch
