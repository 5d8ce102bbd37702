import CaseSuite.Proofs.Terminal.Barrier
import CaseSuite.Proofs.Terminal.Rounds
import Mathlib

/-!
# Stored rows and their requests

A request to store rows marks the name as not ready and then sends a fetch.  The mark is made at
once and the rows come later, so rows of an earlier request under the same name that is still under
way come in after the mark.  When a wait has returned, a name reads as the rows that came in last
since its last mark, whoever asked for them.  These are the rows of the last request if its fetch
went well; if it failed or never ran, they are those of an earlier one, and only if there are none
the name reads as not ready.
-/

namespace CaseSuite
namespace Terminal

variable {σ : Type}

/-! ## What comes in under a name -/

/-- The rows for a name that the worker has fetched and not stored yet. -/
def Phase.inHand (name : String) : Phase → List Value
  | .storing other rows => if other = name then [rows] else []
  | _ => []

/-- The rows that a round brings for a name. -/
def Round.rows? (name : String) : Round → Option Value
  | .fetch other (.done rows) => if other = name then some (rowsValue rows) else none
  | _ => none

/-- The rows that deeds bring for a name. -/
def brought (name : String) (deeds : List Deed) : List Value :=
  (deeds.filterMap Deed.round?).filterMap (Round.rows? name)

/-- How a name reads after rows have been stored under it, one after the other. -/
def Stored.latest (values : List Value) : Stored :=
  match values.getLast? with
  | some rows => .ready rows
  | none => .notReady

/-- The deed begins a request to store under a name. -/
def Deed.stores (name : String) : Deed → Bool
  | .began (.store other) => other = name
  | _ => false

/-- Of the rows that have come in for a name all are stored but those in the worker's hand. -/
def Reads (t : Terminal) (name : String) (arrived : List Value) : Prop :=
  ∃ stored, arrived = stored ++ t.phase.inHand name ∧
    t.result? name = some (.latest stored)

section Reads

variable {t t' : Terminal} {stages stages' : Multiset Stage} {deeds : List Deed} {name : String}
  {arrived : List Value}

theorem Reads.same
    (h : t.Reads name arrived) (hresult : t'.result? name = t.result? name)
    (hhand : t'.phase.inHand name = t.phase.inHand name) : t'.Reads name arrived := by
  obtain ⟨stored, harrived, hreads⟩ := h
  exact ⟨stored, by rw [harrived, hhand], by rw [hresult, hreads]⟩

theorem result?_store_of_ne
    {other : String} (hne : other ≠ name) (s : Stored) :
    (t.store other s).result? name = t.result? name := by
  have hbeq : (name == other) = false := by simpa using hne.symm
  rw [result?, store, List.lookup_cons, hbeq]
  rfl

theorem inHand_afterExecute (reply : Reply Unit) : (Phase.afterExecute reply).inHand name = [] := by
  cases reply <;> rfl

theorem inHand_afterClose (reply : Reply Unit) : (Phase.afterClose reply).inHand name = [] := by
  cases reply <;> rfl

theorem Reads.work
    {db : Database σ} {w w' : σ} (h : t.Reads name arrived) (hworks : Works db w t deeds w' t') :
    t'.Reads name (arrived ++ brought name deeds) := by
  have hsame : brought name deeds = [] → t'.result? name = t.result? name →
      t'.phase.inHand name = t.phase.inHand name →
      t'.Reads name (arrived ++ brought name deeds) := by
    intro hnone hresult hhand
    rw [hnone, List.append_nil]
    exact h.same hresult hhand
  cases hworks with
  | fetch hphase =>
      rename_i other reply _
      obtain ⟨stored, harrived, hreads⟩ := h
      have hempty : t.phase.inHand name = [] := by rw [hphase]; rfl
      rw [hempty, List.append_nil] at harrived
      refine ⟨stored, ?_, hreads⟩
      rw [harrived]
      cases reply with
      | done rows =>
          by_cases hname : other = name
          · simp [brought, Deed.round?, Round.rows?, Phase.afterFetch, Phase.inHand, hname]
          · simp [brought, Deed.round?, Round.rows?, Phase.afterFetch, Phase.inHand, hname]
      | refused d => rfl
      | crashed message => rfl
  | store hphase =>
      rename_i other rows
      by_cases hname : other = name
      · subst hname
        obtain ⟨stored, harrived, -⟩ := h
        have hhand : t.phase.inHand other = [rows] := by rw [hphase, Phase.inHand, if_pos rfl]
        refine ⟨arrived, rfl, ?_⟩
        rw [harrived, hhand, Stored.latest, List.getLast?_concat]
        simp [result?, store]
      · refine hsame rfl (result?_store_of_ne hname _) ?_
        rw [hphase, Phase.inHand, if_neg hname]
        rfl
  | execute hphase =>
      refine hsame rfl rfl ?_
      rw [hphase, inHand_afterExecute]
      rfl
  | close hphase =>
      refine hsame rfl rfl ?_
      rw [hphase, inHand_afterClose]
      rfl
  | take hphase _ | desert hphase _ _ | finish hphase | arrive hphase | shut hphase
  | startExecute hphase | startFetch hphase | clear hphase | report hphase | crash hphase
  | leave hphase | refuse hphase | drop hphase =>
      refine hsame rfl rfl ?_
      rw [hphase]
      rfl

/-- A call brings no rows. -/
theorem brought_of_advances
    {stage : Stage} {p : Progress} (h : Advances t stage deeds t' p) : brought name deeds = [] := by
  cases h <;> rfl

theorem Reads.visit
    (h : t.Reads name arrived) (hmark : .marking name ∉ stages)
    (hvisit : Visit t stages deeds t' stages') : t'.Reads name (arrived ++ brought name deeds) := by
  cases hvisit with
  | pass =>
      rw [brought, List.filterMap_nil, List.filterMap_nil, List.append_nil]
      exact h
  | work _ works => exact h.work works
  | begin t stages call =>
      have hnone : brought name [.began call] = [] := rfl
      rwa [hnone, List.append_nil]
  | goOn _ advances =>
      rw [brought_of_advances advances, List.append_nil]
      cases advances with
      | mark other =>
          have hne : other ≠ name := by
            rintro rfl
            exact hmark (Multiset.mem_cons_self _ _)
          exact h.same (result?_store_of_ne hne _) rfl
      | reject task => cases task <;> exact h
      | _ => exact h

end Reads

/-! ## The fetch of the last request -/

/-- How far the fetch of a request has come, if these tasks had been sent when the request was made
and nobody asks for the name again. -/
inductive OwnFetch (before : List Task) (name : String) (t : Terminal) (stages : Multiset Stage)
    (l : Ledger) : Prop
  | underway (stage : stages = {.counting (.fetch name)} ∨ stages = {.sending (.fetch name)})
      (sent : l.sent = before)
  /-- The worker refuses all further tasks, and nobody is about to send one. -/
  | lost (closed : t.closed = true) (still : ∀ task, .sending task ∉ stages)
      (sent : l.sent = before)
  | sent (more : List Task) (sent : l.sent = before ++ .fetch name :: more)
      (last : .fetch name ∉ more) (uncounted : .counting (.fetch name) ∉ stages)
      (unsent : .sending (.fetch name) ∉ stages)

section OwnFetch

variable {t t' : Terminal} {stages stages' : Multiset Stage} {deeds : List Deed} {name : String}
  {before : List Task} {l : Ledger}

theorem closed_of_works
    {db : Database σ} {w w' : σ} (h : Works db w t deeds w' t') (hclosed : t.closed = true) :
    t'.closed = true := by
  cases h <;> first | exact hclosed | rfl

theorem sent_of_works
    {db : Database σ} {w w' : σ} (h : Works db w t deeds w' t') :
    (l.recordAll deeds).sent = l.sent := by
  cases h <;> rfl

/-- A step of the one call that is under way. -/
theorem OwnFetch.advance
    {stage : Stage} {p : Progress} (h : OwnFetch before name t {stage} l)
    (horderly : Orderly t {stage} l) (hmark : stage ≠ .marking name)
    (hadvance : Advances t stage deeds t' p) :
    OwnFetch before name t' p.stages (l.recordAll deeds) := by
  cases h with
  | underway hstage sent =>
      rcases hstage with hstage | hstage
      · obtain rfl : stage = .counting (.fetch name) := by simpa using hstage
        cases hadvance with
        | count => exact OwnFetch.underway (Or.inr rfl) sent
        | late _ closed => exact OwnFetch.lost closed (by simp [Progress.stages]) sent
        | read idle => cases idle
      · obtain rfl : stage = .sending (.fetch name) := by simpa using hstage
        cases hadvance with
        | send =>
            have hsent : l.sent ++ [.fetch name] = before ++ .fetch name :: [] := by rw [sent]
            exact OwnFetch.sent [] hsent (by simp) (by simp [Progress.stages])
              (by simp [Progress.stages])
        | lose _ gone =>
            exact OwnFetch.lost (horderly.closed_of_isGone gone) (by simp [Progress.stages]) sent
        | read idle => cases idle
  | lost closed still sent =>
      cases hadvance with
      | count _ isOpen => simp [closed] at isOpen
      | send task => exact absurd (Multiset.mem_singleton_self _) (still task)
      | reject task => cases task <;> exact OwnFetch.lost closed (by simp [Progress.stages]) sent
      | _ => exact OwnFetch.lost closed (by simp [Progress.stages]) sent
  | sent more sent last uncounted unsent =>
      cases hadvance with
      | mark other =>
          refine OwnFetch.sent more sent last ?_ (by simp [Progress.stages])
          simpa [Progress.stages, eq_comm] using hmark
      | count task =>
          refine OwnFetch.sent more sent last (by simp [Progress.stages]) ?_
          simpa [Progress.stages] using uncounted
      | send task =>
          have hsent : l.sent ++ [task] = before ++ .fetch name :: (more ++ [task]) := by
            rw [sent]
            simp
          refine OwnFetch.sent (more ++ [task]) hsent ?_ (by simp [Progress.stages])
            (by simp [Progress.stages])
          simpa [last] using unsent
      | _ =>
          exact OwnFetch.sent more sent last (by simp [Progress.stages])
            (by simp [Progress.stages])

theorem OwnFetch.visit
    (h : OwnFetch before name t stages l) (horderly : Orderly t stages l)
    (hmark : .marking name ∉ stages) (hvisit : Visit t stages deeds t' stages')
    (hbefore : stages.card ≤ 1) (hafter : stages'.card ≤ 1) :
    OwnFetch before name t' stages' (l.recordAll deeds) := by
  cases hvisit with
  | pass => exact h
  | work _ works =>
      have hsent := sent_of_works (l := l) works
      cases h with
      | underway stage sent => exact OwnFetch.underway stage (hsent.trans sent)
      | lost closed still sent =>
          exact OwnFetch.lost (closed_of_works works closed) still (hsent.trans sent)
      | sent more sent last uncounted unsent =>
          exact OwnFetch.sent more (hsent.trans sent) last uncounted unsent
  | begin t stages call =>
      obtain rfl : stages = 0 := by simpa using hafter
      cases h with
      | underway stage sent => simp at stage
      | lost closed still sent =>
          refine OwnFetch.lost closed ?_ sent
          cases call <;> simp [Call.stage]
      | sent more sent last uncounted unsent =>
          refine OwnFetch.sent more sent last ?_ ?_
          · cases call <;> simp [Call.stage]
          · cases call <;> simp [Call.stage]
  | goOn rest advances =>
      obtain rfl : rest = 0 := by simpa using hbefore
      rw [Multiset.cons_zero] at h horderly hmark
      rw [add_zero]
      refine h.advance horderly ?_ advances
      rintro rfl
      exact hmark (Multiset.mem_singleton_self _)

/-- What is known once a name has been marked. -/
structure SinceMark (before : List Task) (name : String) (arrived : List Value) (t : Terminal)
    (stages : Multiset Stage) (l : Ledger) : Prop where
  accounted : Accounted t stages l
  own : OwnFetch before name t stages l
  unmarked : .marking name ∉ stages
  reads : t.Reads name arrived

theorem SinceMark.visit
    {arrived : List Value} (h : SinceMark before name arrived t stages l)
    (hvisit : Visit t stages deeds t' stages') (hbefore : stages.card ≤ 1)
    (hafter : stages'.card ≤ 1) (hdeeds : ∀ deed ∈ deeds, deed.stores name = false) :
    SinceMark before name (arrived ++ brought name deeds) t' stages' (l.recordAll deeds) where
  accounted := h.accounted.visit hvisit
  own := h.own.visit h.accounted.orderly h.unmarked hvisit hbefore hafter
  unmarked := by
    have hunmarked := h.unmarked
    cases hvisit with
    | pass => exact hunmarked
    | work => exact hunmarked
    | begin t stages call =>
        have hcall := hdeeds (.began call) List.mem_cons_self
        cases call <;> simp_all [Call.stage, Deed.stores, eq_comm]
    | goOn rest advances =>
        cases advances <;> simp_all [Progress.stages]
  reads := h.reads.visit h.unmarked hvisit

end OwnFetch

/-! ## Workers that fetch no more -/

/-- The worker leaves, or has nothing to do. -/
def Spent (t : Terminal) : Prop :=
  t.phase.isExit = true ∨ (t.phase = .arriving ∨ t.phase = .waiting) ∧ t.queue = []

section Spent

variable {t t' : Terminal} {stages stages' : Multiset Stage} {deeds : List Deed} {l : Ledger}

theorem Ledger.Standing.spent
    {last : Verdict} {phase : Phase} (h : l.Standing last phase) (htaken : l.taken = l.tasks) :
    phase.isExit = true ∨ phase = .arriving ∨ phase = .waiting := by
  have hmore : ∀ task, l.taken ≠ l.tasks ++ [task] := by
    intro task heq
    have hlength := congrArg List.length (htaken.symm.trans heq)
    simp at hlength
  cases phase with
  | arriving => exact Or.inr (Or.inl rfl)
  | waiting => exact Or.inr (Or.inr rfl)
  | starting task =>
      cases task with
      | shutdown => exact Or.inl rfl
      | execute query => exact absurd h.1 (hmore _)
      | fetch name => exact absurd h.1 (hmore _)
  | clearing | executing | fetching => exact absurd h.1 (hmore _)
  | storing =>
      obtain ⟨fetched, -, heq, -⟩ := h
      exact absurd heq (hmore _)
  | reporting | finishing =>
      obtain ⟨round, heq, -⟩ := h
      exact absurd heq (hmore _)
  | _ => exact Or.inl rfl

/-- A worker is spent when nothing is pending. -/
theorem spent_of_pending_zero
    (h : Orderly t stages l) (hpending : t.pending = 0) : t.Spent := by
  by_cases hclosed : t.closed = true
  · exact Or.inl (Phase.isExit_of_isSealed (h.closed_iff.mp hclosed))
  · obtain ⟨hqueue, htaken, -⟩ := h.completed_of_pending_zero (by simpa using hclosed) hpending
    rcases h.standing.spent htaken with hexit | hready
    · exact Or.inl hexit
    · exact Or.inr ⟨hready, hqueue⟩

theorem Visit.spent
    (h : Visit t stages deeds t' stages') (hquiet : ∀ stage ∈ stages, stage.isQuiet = true)
    (hspent : t.Spent) : t'.Spent := by
  cases h with
  | pass => exact hspent
  | begin => exact hspent
  | work _ works =>
      rcases hspent with hexit | ⟨hready, hqueue⟩
      · exact Or.inl (works.isExit hexit)
      · cases works with
        | arrive => exact Or.inr ⟨Or.inr rfl, hqueue⟩
        | take _ queue => simp [hqueue] at queue
        | desert => exact Or.inl rfl
        | _ => simp_all
  | goOn _ advances =>
      have hbefore := hquiet _ (Multiset.mem_cons_self _ _)
      cases advances with
      | read | claim | duplicate => exact hspent
      | _ => simp [Stage.isQuiet, Stage.isIdle] at hbefore

theorem Spent.inHand
    (h : t.Spent) (name : String) : t.phase.inHand name = [] := by
  rcases h with hexit | ⟨hphase | hphase, -⟩
  · cases hphase : t.phase <;> simp_all [Phase.isExit, Phase.inHand]
  · rw [hphase]
    rfl
  · rw [hphase]
    rfl

end Spent

/-! ## The rounds of one request and of others -/

section Rounds

variable {before : List Task} {name : String} {t : Terminal} {stages : Multiset Stage} {l : Ledger}

theorem eq_fetch_of_rows?
    {round : Round} {rows : Value} (h : round.rows? name = some rows) :
    ∃ fetched, round = .fetch name (.done fetched) ∧ rows = rowsValue fetched := by
  unfold Round.rows? at h
  split at h
  · rename_i other fetched
    by_cases hname : other = name
    · subst hname
      simp only [if_true, Option.some.injEq] at h
      exact ⟨fetched, rfl, h.symm⟩
    · simp [hname] at h
  · cases h

theorem task_of_round
    (hrounds : l.rounds.map Round.task <+: l.sent) {k : Nat} {round : Round}
    (hround : l.rounds[k]? = some round) : l.sent[k]? = some round.task := by
  obtain ⟨rest, hsent⟩ := hrounds
  have hlt : k < (l.rounds.map Round.task).length := by
    simpa using (List.getElem?_eq_some_iff.mp hround).1
  rw [← hsent, List.getElem?_append_left hlt, List.getElem?_map, hround]
  rfl

/-- Of the rounds after those of the tasks that had been sent before, the first one is the request's
own, and no other one is for the name. -/
theorem OwnFetch.round
    (h : OwnFetch before name t stages l) (hrounds : l.rounds.map Round.task <+: l.sent)
    {k : Nat} {round : Round} (hround : l.rounds[k]? = some round) (hk : before.length ≤ k) :
    round.task = .fetch name ↔ k = before.length := by
  have htask := task_of_round hrounds hround
  cases h with
  | underway _ sent =>
      rw [sent, List.getElem?_eq_none hk] at htask
      cases htask
  | lost _ _ sent =>
      rw [sent, List.getElem?_eq_none hk] at htask
      cases htask
  | sent more sent last =>
      rw [sent, List.getElem?_append_right hk] at htask
      obtain ⟨j, rfl⟩ := Nat.exists_eq_add_of_le hk
      rw [Nat.add_sub_cancel_left] at htask
      constructor
      · intro heq
        cases j with
        | zero => rfl
        | succ j =>
            rw [List.getElem?_cons_succ, heq] at htask
            exact absurd (List.mem_of_getElem? htask) last
      · intro heq
        obtain rfl : j = 0 := by omega
        simpa using htask.symm

/-- Rows that the request's own round brings come in last. -/
theorem OwnFetch.getLast?_rows
    (h : OwnFetch before name t stages l) (hrounds : l.rounds.map Round.task <+: l.sent)
    {m : Nat} (hm : m ≤ before.length) {fetched : List Row}
    (hown : l.rounds[before.length]? = some (.fetch name (.done fetched))) :
    ((l.rounds.drop m).filterMap (Round.rows? name)).getLast? = some (rowsValue fetched) := by
  obtain ⟨hlt, hget⟩ := List.getElem?_eq_some_iff.mp hown
  have hlater : (l.rounds.drop (before.length + 1)).filterMap (Round.rows? name) = [] := by
    rw [List.filterMap_eq_nil_iff]
    intro round hround
    obtain ⟨j, hj⟩ := List.mem_iff_getElem?.mp hround
    rw [List.getElem?_drop] at hj
    have hother := h.round hrounds hj (by omega)
    rcases hrows : round.rows? name with _ | rows
    · rfl
    · obtain ⟨fetched, rfl, -⟩ := eq_fetch_of_rows? hrows
      have heq := hother.mp rfl
      omega
  have hsplit : l.rounds.drop m = (l.rounds.take before.length).drop m ++
      .fetch name (.done fetched) :: l.rounds.drop (before.length + 1) := by
    conv_lhs => rw [← List.take_append_drop before.length l.rounds]
    rw [List.drop_append_of_le_length (by simp; omega), List.drop_eq_getElem_cons hlt, hget]
  rw [hsplit, List.filterMap_append, List.filterMap_cons, hlater]
  simp [Round.rows?]

theorem OwnFetch.exists_sent
    (h : OwnFetch before name t stages l) : ∃ more, l.sent = before ++ more := by
  cases h with
  | underway _ sent => exact ⟨[], by simp [sent]⟩
  | lost _ _ sent => exact ⟨[], by simp [sent]⟩
  | sent more sent => exact ⟨_, sent⟩

/-- Where all fetches for the name had been answered before, only the request's own one brings
rows. -/
theorem OwnFetch.rows_eq_nil
    (h : OwnFetch before name t stages l) (hrounds : l.rounds.map Round.task <+: l.sent)
    {m : Nat} (hanswered : .fetch name ∉ before.drop m)
    (hown : ∀ fetched, l.rounds[before.length]? ≠ some (.fetch name (.done fetched))) :
    (l.rounds.drop m).filterMap (Round.rows? name) = [] := by
  rw [List.filterMap_eq_nil_iff]
  intro round hround
  rcases hrows : round.rows? name with _ | rows
  · rfl
  obtain ⟨fetched, rfl, -⟩ := eq_fetch_of_rows? hrows
  obtain ⟨j, hj⟩ := List.mem_iff_getElem?.mp hround
  rw [List.getElem?_drop] at hj
  exfalso
  by_cases hk : before.length ≤ m + j
  · have heq := (h.round hrounds hj hk).mp rfl
    rw [heq] at hj
    exact hown fetched hj
  · have htask := task_of_round hrounds hj
    obtain ⟨more, hsent⟩ := h.exists_sent
    rw [hsent, List.getElem?_append_left (by omega), ← List.getElem?_drop] at htask
    exact hanswered (List.mem_of_getElem? htask)

end Rounds

namespace System

/-! ## One caller -/

theorem card_stages_le
    {s : System σ} (h : s.callers.length = 1) (i : Nat) : (s.stages i).card ≤ 1 := by
  obtain ⟨c, hc⟩ := List.length_eq_one_iff.mp h
  rw [stages, hc, List.map_singleton, List.sum_singleton]
  exact card_stagesOf_le _ _

theorem length_callers_of_move
    {db : Database σ} {s s' : System σ} {mover : Mover} (h : s.move db mover = some s') :
    s'.callers.length = s.callers.length := by
  cases mover with
  | worker k =>
      obtain ⟨t, w, t', -, -, rfl⟩ := move_worker h
      rfl
  | caller k =>
      obtain ⟨c, ts, c', -, -, rfl⟩ := move_caller h
      exact List.length_set

theorem length_callers_of_run
    {db : Database σ} {s s' : System σ} {movers : List Mover}
    (h : s.runSchedule db movers = some s') : s'.callers.length = s.callers.length := by
  induction movers generalizing s with
  | nil =>
      cases h
      rfl
  | cons mover movers ih =>
      obtain ⟨next, hmove, hrest⟩ := Option.bind_eq_some_iff.mp h
      exact (ih hrest).trans (length_callers_of_move hmove)

/-- Every schedule keeps a terminal accounted for, and its rounds are those that the schedule
runs. -/
theorem accounted_run
    {db : Database σ} {s s' : System σ} {i : Nat} {l : Ledger} {movers : List Mover} {t : Terminal}
    (ht : s.terminals[i]? = some t) (h : Accounted t (s.stages i) l)
    (hrun : s.runSchedule db movers = some s') :
    ∃ t', s'.terminals[i]? = some t' ∧
      Accounted t' (s'.stages i) (l.recordAll (s.history db i movers)) ∧
      (l.recordAll (s.history db i movers)).rounds =
        l.rounds ++ (s.history db i movers).filterMap Deed.round? := by
  induction movers generalizing s l t with
  | nil =>
      cases hrun
      exact ⟨t, ht, h, by simp [history]⟩
  | cons mover movers ih =>
      obtain ⟨next, hmove, hrest⟩ := Option.bind_eq_some_iff.mp hrun
      obtain ⟨t', ht', hvisit⟩ := visit_of_move hmove ht
      simp only [history, hmove, Ledger.recordAll_append, List.filterMap_append]
      obtain ⟨final, hfinal, haccounted, hrounds⟩ := ih ht' (h.visit hvisit) hrest
      refine ⟨final, hfinal, haccounted, ?_⟩
      rw [hrounds, h.rounds_visit hvisit, List.append_assoc]

/-- What is known since a mark stays known as long as one caller is alone. -/
theorem sinceMark_run
    {db : Database σ} {s s' : System σ} {i : Nat} {l : Ledger} {movers : List Mover} {t : Terminal}
    {before : List Task} {name : String} {arrived : List Value} (ht : s.terminals[i]? = some t)
    (h : SinceMark before name arrived t (s.stages i) l) (halone : s.callers.length = 1)
    (hlast : ∀ deed ∈ s.history db i movers, deed.stores name = false)
    (hrun : s.runSchedule db movers = some s') :
    ∃ t', s'.terminals[i]? = some t' ∧
      SinceMark before name (arrived ++ brought name (s.history db i movers)) t' (s'.stages i)
        (l.recordAll (s.history db i movers)) := by
  induction movers generalizing s l t arrived with
  | nil =>
      cases hrun
      refine ⟨t, ht, ?_⟩
      simpa [history, brought] using h
  | cons mover movers ih =>
      obtain ⟨next, hmove, hrest⟩ := Option.bind_eq_some_iff.mp hrun
      obtain ⟨t', ht', hvisit⟩ := visit_of_move hmove ht
      have halone' : next.callers.length = 1 := (length_callers_of_move hmove).trans halone
      simp only [history, hmove, Ledger.recordAll_append] at hlast ⊢
      have hfirst := h.visit hvisit (card_stages_le halone i) (card_stages_le halone' i)
        fun deed hdeed => hlast deed (List.mem_append_left _ hdeed)
      obtain ⟨final, hfinal, hsince⟩ := ih ht' hfirst halone'
        (fun deed hdeed => hlast deed (List.mem_append_right _ hdeed)) hrest
      refine ⟨final, hfinal, ?_⟩
      simpa [brought, List.append_assoc] using hsince

/-! ## The last request under a name -/

/-- One caller, alone on its terminals, asks for rows under a name and marks it, waits for the
terminal later, leaves it in peace from then on and never asks for rows under that name again.  The
schedule is cut where the name is marked. -/
structure LastStore (db : Database σ) (s₀ : System σ) (i : Nat) (name : String)
    (before : List Mover) (s₁ : System σ) (since : List Mover) (s : System σ) : Prop where
  fresh : s₀.FreshAt i
  alone : s₀.callers.length = 1
  runs : s₀.runSchedule db before = some s₁
  marks : ∃ c, s₁.callers[0]? = some c ∧ c.current = some (i, .marking name)
  waits : ∃ between during after s₂ s₃,
    since = .caller 0 :: between ++ (waitMoves 0 during ++ after) ∧
    s₁.runSchedule db (.caller 0 :: between) = some s₂ ∧ WaitReturns db s₂ i 0 during s₃ ∧
    s₃.runSchedule db after = some s ∧ s₃.StaysQuiet db i after
  last : ∀ deed ∈ s₁.history db i since, deed.stores name = false

/-- A name reads as the rows of a round, or as not ready if there was no round or it brought
none. -/
def AsRequested (t : Terminal) (name : String) (own : Option Round) : Prop :=
  (∀ rows, t.rows name = .ok rows →
    ∃ fetched, own = some (.fetch name (.done fetched)) ∧ rows = rowsValue fetched) ∧
  ((∀ fetched, own ≠ some (.fetch name (.done fetched))) →
    t.rows name = .error (.resultNotReady t.name name))

theorem stages_of_alone
    {s : System σ} {c : Caller} (halone : s.callers.length = 1) (hc : s.callers[0]? = some c)
    (i : Nat) : s.stages i = c.stagesOn i := by
  obtain ⟨c', hc'⟩ := List.length_eq_one_iff.mp halone
  obtain rfl : c' = c := by simpa [hc'] using hc
  rw [stages, hc', List.map_singleton, List.sum_singleton]

/-- When a wait of the only caller has returned, the worker is spent and stays so. -/
theorem spent_of_wait
    {db : Database σ} {s₀ s₁ s₂ s : System σ} {i : Nat} {before during after : List Mover}
    (fresh : s₀.FreshAt i) (halone : s₀.callers.length = 1)
    (hbefore : s₀.runSchedule db before = some s₁) (hwait : WaitReturns db s₁ i 0 during s₂)
    (hafter : s₂.runSchedule db after = some s) (hquiet : s₂.StaysQuiet db i after) :
    ∃ t, s.terminals[i]? = some t ∧ t.Spent := by
  obtain ⟨last, c, t, hlast, hc, hcurrent, ht, hpending, -⟩ := hwait.drained
  have hrun : s₀.runSchedule db (before ++ .caller 0 :: during) = some last := by
    rw [runSchedule_append, hbefore]
    exact hlast
  obtain ⟨u, hu, horderly⟩ := fresh.ordered.run hrun
  obtain rfl : t = u := Option.some.inj (ht.symm.trans hu)
  have hstages : last.stages i = {.waiting} := by
    rw [stages_of_alone ((length_callers_of_run hrun).trans halone) hc, Caller.stagesOn, hcurrent]
    simp [stagesOf]
  have hreturns : last.runSchedule db [.caller 0] = some s₂ := by
    have hall := hwait.returns
    rw [waitMoves, runSchedule_append, hlast] at hall
    exact hall
  -- the wait that returns leaves no deed
  have hstill : last.StaysQuiet db i [.caller 0] := by
    have hnone : last.deedsOn db i (.caller 0) = [] := by
      simp [deedsOn, hc, Caller.deedsOn, hcurrent, ht, callDeeds]
    intro deed hdeed
    rw [history] at hdeed
    split at hdeed
    · simp [hnone, history] at hdeed
    · cases hdeed
  have hlastQuiet : last.Quiet i := by
    intro stage hstage
    obtain rfl : stage = .waiting := by simpa [hstages] using hstage
    rfl
  obtain ⟨hspent, hquiet₂⟩ := quiet_run Visit.spent
    ⟨t, ht, spent_of_pending_zero horderly hpending⟩ hlastQuiet hstill hreturns
  exact (quiet_run Visit.spent hspent hquiet₂ hquiet hafter).1

/-- The only caller marks a name. -/
theorem sinceMark_of_mark
    {db : Database σ} {s s' : System σ} {i : Nat} {name : String} {t : Terminal} {c : Caller}
    {l : Ledger} (halone : s.callers.length = 1) (ht : s.terminals[i]? = some t)
    (h : Accounted t (s.stages i) l) (hc : s.callers[0]? = some c)
    (hcurrent : c.current = some (i, .marking name)) (hmove : s.move db (.caller 0) = some s') :
    s.deedsOn db i (.caller 0) = [] ∧ ∃ t', s'.terminals[i]? = some t' ∧
      SinceMark l.sent name (t.phase.inHand name) t' (s'.stages i) l := by
  have hnone : s.deedsOn db i (.caller 0) = [] := by
    simp [deedsOn, hc, Caller.deedsOn, hcurrent, ht, callDeeds]
  obtain ⟨t', ht', hvisit⟩ := visit_of_move hmove ht
  have haccounted := h.visit hvisit
  rw [hnone, Ledger.recordAll_nil] at haccounted
  have halone' := (length_callers_of_move hmove).trans halone
  obtain ⟨c₀, ts, c', hc₀, hstep, rfl⟩ := move_caller hmove
  obtain rfl : c = c₀ := Option.some.inj (hc.symm.trans hc₀)
  rcases Caller.step_cases hstep with
    ⟨k, call, rest, hidle, -⟩ | ⟨k, stage, u, u', p, hbusy, hu, hcall, rfl, hnext, -⟩
  · rw [hcurrent] at hidle
    cases hidle
  · rw [hcurrent] at hbusy
    cases hbusy
    obtain rfl : t = u := Option.some.inj (ht.symm.trans hu)
    cases hcall
    have hlength : i < s.terminals.length := (List.getElem?_eq_some_iff.mp ht).1
    obtain rfl : t.store name .notReady = t' := by
      simpa [List.getElem?_set_self hlength] using ht'
    have hfirst : (s.callers.set 0 c')[0]? = some c' :=
      List.getElem?_set_self (by rw [halone]; exact Nat.one_pos)
    have hstages := stages_of_alone halone' hfirst i
    rw [Caller.stagesOn, hnext, Progress.current, stagesOf, if_pos rfl] at hstages
    refine ⟨hnone, _, ht', haccounted, ?_, ?_, [], rfl, ?_⟩
    · rw [hstages]
      exact OwnFetch.underway (Or.inl rfl) rfl
    · rw [hstages]
      simp
    · simp [result?, store, Stored.latest]

theorem asRequested_iff
    {t : Terminal} {name : String} {own : Option Round} {arrived : List Value}
    (hreads : t.result? name = some (.latest arrived))
    (hown : ∀ fetched, own = some (.fetch name (.done fetched)) →
      t.rows name = .ok (rowsValue fetched)) :
    AsRequested t name own ↔
      (∃ fetched, own = some (.fetch name (.done fetched))) ∨ arrived = [] := by
  constructor
  · intro h
    rcases hlast : arrived.getLast? with _ | rows
    · exact Or.inr (List.getLast?_eq_none_iff.mp hlast)
    · have hrows : t.rows name = .ok rows := by
        rw [Terminal.rows, hreads, Stored.latest, hlast]
      obtain ⟨fetched, hfetched, -⟩ := h.1 rows hrows
      exact Or.inl ⟨fetched, hfetched⟩
  · rintro (⟨fetched, hfetched⟩ | rfl)
    · have hrows := hown fetched hfetched
      refine ⟨?_, fun hnone => absurd hfetched (hnone fetched)⟩
      intro rows hrows'
      rw [hrows, Except.ok.injEq] at hrows'
      exact ⟨fetched, hfetched, hrows'.symm⟩
    · have hrows : t.rows name = .error (.resultNotReady t.name name) := by
        rw [Terminal.rows, hreads]
        rfl
      refine ⟨?_, fun _ => hrows⟩
      intro rows hrows'
      rw [hrows] at hrows'
      cases hrows'

/-- The rows that have come in for a name since it was marked, the latest last: those that the
worker had in hand then, and those of the rounds since. -/
def arrivals (t₁ : Terminal) (l₁ l : Ledger) (name : String) : List Value :=
  t₁.phase.inHand name ++ (l.rounds.drop l₁.rounds.length).filterMap (Round.rows? name)

/-- What is known in the end about the last request under a name. -/
theorem sinceMark_of_lastStore
    {db : Database σ} {s₀ s₁ s : System σ} {i : Nat} {name : String} {before since : List Mover}
    {t₁ t : Terminal} (h : LastStore db s₀ i name before s₁ since s)
    (ht₁ : s₁.terminals[i]? = some t₁) (ht : s.terminals[i]? = some t) :
    let l₁ := s₀.ledger db i before
    let l := s₀.ledger db i (before ++ since)
    t.Spent ∧ Accounted t₁ (s₁.stages i) l₁ ∧
      SinceMark l₁.sent name (arrivals t₁ l₁ l name) t (s.stages i) l := by
  intro l₁ l
  obtain ⟨⟨t₀, ht₀, hfresh⟩, hstages₀⟩ := h.fresh
  have haccounted₀ : Accounted t₀ (s₀.stages i) {} := by
    rw [hstages₀]
    exact hfresh.accounted
  obtain ⟨u, hu, hfirst, -⟩ := accounted_run ht₀ haccounted₀ h.runs
  obtain rfl : t₁ = u := Option.some.inj (ht₁.symm.trans hu)
  have haccounted₁ : Accounted t₁ (s₁.stages i) l₁ := hfirst
  have halone₁ := (length_callers_of_run h.runs).trans h.alone
  obtain ⟨c, hc, hcurrent⟩ := h.marks
  obtain ⟨between, during, after, s₂, s₃, hsince, hbetween, hwait, hafter, hquiet⟩ := h.waits
  have hrun : s₁.runSchedule db since = some s := by
    rw [hsince, runSchedule_append, hbetween]
    rw [Option.bind_some, runSchedule_append, hwait.returns]
    exact hafter
  have hrun₂ : s₀.runSchedule db (before ++ .caller 0 :: between) = some s₂ := by
    rw [runSchedule_append, h.runs]
    exact hbetween
  obtain ⟨v, hv, hspent⟩ := spent_of_wait h.fresh h.alone hrun₂ hwait hafter hquiet
  obtain rfl : t = v := Option.some.inj (ht.symm.trans hv)
  refine ⟨hspent, haccounted₁, ?_⟩
  -- the first move marks the name, the others come since
  obtain ⟨-, -, -, hrounds⟩ := accounted_run ht₁ haccounted₁ hrun
  have hl : l = l₁.recordAll (s₁.history db i since) := ledger_append h.runs i since
  have harrived : arrivals t₁ l₁ l name =
      t₁.phase.inHand name ++ brought name (s₁.history db i since) := by
    rw [arrivals, hl, hrounds, List.drop_left]
    rfl
  rw [harrived, hl]
  have hlast := h.last
  obtain ⟨rest, rfl⟩ : ∃ rest, since = .caller 0 :: rest := ⟨_, hsince⟩
  obtain ⟨next, hmove, hrest⟩ := Option.bind_eq_some_iff.mp hrun
  obtain ⟨hnone, t₂, ht₂, hmark⟩ :=
    sinceMark_of_mark halone₁ ht₁ haccounted₁ hc hcurrent hmove
  simp only [history, hmove, hnone, List.nil_append] at hlast ⊢
  obtain ⟨v, hv, hend⟩ := sinceMark_run ht₂ hmark
    ((length_callers_of_move hmove).trans halone₁) hlast hrest
  obtain rfl : t = v := Option.some.inj (ht.symm.trans hv)
  exact hend

/--
A name reads as the rows that came in last since its last mark.  The fetch of the last request is
the task sent next after the mark, so its round has the number of the tasks sent before.  If that
round brings rows, the name reads as these rows.  Otherwise the name reads as not ready exactly if
no other rows came in since the mark; in particular if every fetch for the name that had been sent
before was answered, and what it brought was stored, by then.
-/
theorem rows_of_last_store
    {db : Database σ} {s₀ s₁ s : System σ} {i : Nat} {name : String} {before since : List Mover}
    {t₁ t : Terminal} (h : LastStore db s₀ i name before s₁ since s)
    (ht₁ : s₁.terminals[i]? = some t₁) (ht : s.terminals[i]? = some t) :
    let l₁ := s₀.ledger db i before
    let l := s₀.ledger db i (before ++ since)
    let own := l.rounds[l₁.sent.length]?
    (∀ round, own = some round → round.task = .fetch name) ∧
    t.result? name = some (.latest (arrivals t₁ l₁ l name)) ∧
    (∀ fetched, own = some (.fetch name (.done fetched)) →
      t.rows name = .ok (rowsValue fetched)) ∧
    (AsRequested t name own ↔
      (∃ fetched, own = some (.fetch name (.done fetched))) ∨ arrivals t₁ l₁ l name = []) ∧
    (t₁.phase.inHand name = [] → .fetch name ∉ l₁.sent.drop l₁.rounds.length →
      AsRequested t name own) := by
  intro l₁ l own
  obtain ⟨hspent, haccounted₁, hend⟩ := sinceMark_of_lastStore h ht₁ ht
  have hrounds := hend.accounted.rounds_prefix_sent
  have hreads : t.result? name = some (.latest (arrivals t₁ l₁ l name)) := by
    obtain ⟨stored, harrived, hstored⟩ := hend.reads
    rw [hspent.inHand, List.append_nil] at harrived
    rw [harrived]
    exact hstored
  have hown : ∀ fetched, own = some (.fetch name (.done fetched)) →
      t.rows name = .ok (rowsValue fetched) := by
    intro fetched hfetched
    have hbefore : l₁.rounds.length ≤ l₁.sent.length := by
      simpa using haccounted₁.rounds_prefix_sent.length_le
    have hlatest := hend.own.getLast?_rows hrounds hbefore hfetched
    rw [Terminal.rows, hreads, Stored.latest, arrivals, List.getLast?_append, hlatest]
    rfl
  have hiff := asRequested_iff hreads hown
  refine ⟨?_, hreads, hown, hiff, ?_⟩
  · intro round hround
    exact (hend.own.round hrounds hround (le_refl _)).mpr rfl
  · intro hhand hanswered
    by_cases hdone : ∃ fetched, own = some (.fetch name (.done fetched))
    · exact hiff.mpr (Or.inl hdone)
    · refine hiff.mpr (Or.inr ?_)
      rw [arrivals, hhand, List.nil_append]
      exact hend.own.rows_eq_nil hrounds hanswered (not_exists.mp hdone)

/-- Rows are stored under one name twice, and the second fetch fails. -/
def storingTwice : System Memory where
  world :=
    { script := { responses := [("p", .rows [[.text "old"]]), ("q", .rows [[.text "new"]])]
                  fetches := [("q", .error "lost")] }
      sessions := [⟨[], none⟩] }
  terminals := [{ name := "t", connection := 0 }]
  callers := [{ todo := [(0, .execute "p"), (0, .store "r"), (0, .execute "q"), (0, .store "r"),
    (0, .wait)] }]

/-- The worker runs every task before the next one is sent. -/
def promptly : List Mover :=
  List.replicate 7 (Mover.caller 0) ++ List.replicate 13 (Mover.worker 0) ++
    List.replicate 4 (Mover.caller 0)

/-- The worker begins when all tasks have been sent. -/
def belatedly : List Mover :=
  List.replicate 11 (.caller 0)

/-- The second request from its mark on; the worker makes some steps while the caller waits. -/
def fromMark (steps : Nat) : List Mover :=
  Mover.caller 0 :: [Mover.caller 0, Mover.caller 0] ++
    (waitMoves 0 (List.replicate steps (Mover.worker 0)) ++ [])

/-- Where a schedule leads from there. -/
def storingTwiceAfter (movers : List Mover) : System Memory :=
  (storingTwice.runSchedule Memory.database movers).getD storingTwice

theorem lastStore_promptly :
    LastStore Memory.database storingTwice 0 "r" promptly (storingTwiceAfter promptly) (fromMark 11)
      (storingTwiceAfter (promptly ++ fromMark 11)) where
  fresh := ⟨⟨_, rfl, _, _, _, rfl⟩, rfl⟩
  alone := rfl
  runs := by cbv
  marks := ⟨_, by rfl, by rfl⟩
  waits := ⟨_, _, _, storingTwiceAfter (promptly ++ List.replicate 3 (.caller 0)), _, rfl, by cbv,
    ⟨⟨_, _, by rfl, by rfl, by rfl⟩, by decide, by cbv⟩, rfl, by decide +kernel⟩
  last := by decide +kernel

theorem lastStore_belatedly :
    LastStore Memory.database storingTwice 0 "r" belatedly (storingTwiceAfter belatedly)
      (fromMark 24) (storingTwiceAfter (belatedly ++ fromMark 24)) where
  fresh := ⟨⟨_, rfl, _, _, _, rfl⟩, rfl⟩
  alone := rfl
  runs := by cbv
  marks := ⟨_, by rfl, by rfl⟩
  waits := ⟨_, _, _, storingTwiceAfter (belatedly ++ List.replicate 3 (.caller 0)), _, rfl, by cbv,
    ⟨⟨_, _, by rfl, by rfl, by rfl⟩, by decide, by cbv⟩, rfl, by decide +kernel⟩
  last := by decide +kernel

/-- The terminal when the wait has returned. -/
def storedTwice (results : List (String × Stored)) : Terminal :=
  { name := "t", connection := 0, status := .executing, last := .ofDiagnostic (.error "lost"),
    results, phase := .arriving }

/-- The rows of the first fetch were stored, and marked as outdated, before the second one
failed. -/
def outdated : Terminal :=
  storedTwice [("r", .notReady), ("r", .ready (rowsValue [[.text "old"]])), ("r", .notReady)]

/-- The rows of the first fetch were stored after the mark of the second request. -/
def overtaken : Terminal :=
  storedTwice [("r", .ready (rowsValue [[.text "old"]])), ("r", .notReady), ("r", .notReady)]

theorem rows_of_last_store_promptly :
    (storingTwiceAfter (promptly ++ fromMark 11)).terminals[0]? = some outdated ∧
      AsRequested outdated "r" (some (.fetch "r" (.refused (.error "lost")))) ∧
      outdated.rows "r" = .error (.resultNotReady "t" "r") := by
  have hmarked : (storingTwiceAfter promptly).terminals[0]? =
      some { name := "t", connection := 0, status := .waiting,
             results := [("r", .ready (rowsValue [[.text "old"]])), ("r", .notReady)],
             pending := 1, queue := [.execute "q"], phase := .waiting } := by
    cbv
  have hend : (storingTwiceAfter (promptly ++ fromMark 11)).terminals[0]? = some outdated := by
    cbv
  have hown : (storingTwice.ledger Memory.database 0 (promptly ++ fromMark 11)).rounds[
      (storingTwice.ledger Memory.database 0 promptly).sent.length]? =
        some (.fetch "r" (.refused (.error "lost"))) := by
    cbv
  have hrequested := (rows_of_last_store lastStore_promptly hmarked hend).2.2.2.2 rfl
    (by decide +kernel)
  rw [hown] at hrequested
  exact ⟨hend, hrequested, hrequested.2 fun fetched => by simp⟩

/-- Stored rows can outlive their request: those of the first fetch come in after the mark of the
second request, and stay when its fetch fails. -/
theorem rows_outlive_request :
    LastStore Memory.database storingTwice 0 "r" belatedly (storingTwiceAfter belatedly)
        (fromMark 24) (storingTwiceAfter (belatedly ++ fromMark 24)) ∧
      (storingTwiceAfter (belatedly ++ fromMark 24)).terminals[0]? = some overtaken ∧
      (storingTwice.ledger Memory.database 0 (belatedly ++ fromMark 24)).rounds[
        (storingTwice.ledger Memory.database 0 belatedly).sent.length]? =
          some (.fetch "r" (.refused (.error "lost"))) ∧
      overtaken.rows "r" = .ok (rowsValue [[.text "old"]]) ∧
      ¬ AsRequested overtaken "r" (some (.fetch "r" (.refused (.error "lost")))) := by
  have hrows : overtaken.rows "r" = .ok (rowsValue [[.text "old"]]) := rfl
  refine ⟨lastStore_belatedly, by cbv, by cbv, hrows, ?_⟩
  intro hrequested
  obtain ⟨fetched, hfetched, -⟩ := hrequested.1 _ hrows
  simp at hfetched

end System

end Terminal
end CaseSuite
