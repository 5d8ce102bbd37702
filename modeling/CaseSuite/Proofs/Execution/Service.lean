import CaseSuite.Proofs.Execution.Progress
import CaseSuite.Proofs.Terminal.Rounds

/-!
# The service of a terminal

The thread of a case gives each worker tasks, and the worker runs errands to the database: rounds,
and at last the close of its connection.  `Tended` says at any time how the two belong together on
one terminal.  It yields what has become of the tasks once the worker is gone: they all ran and the
connection was closed after them, or the database did not survive one of them, and then that was
the last errand.
-/

namespace CaseSuite

open Terminal (Accounted Answer Call Caller Deed Ledger Orderly Progress Round Stage Task Visit
  Works)

variable {σ : Type}

namespace Terminal

/-! ## Tasks that are given -/

/-- The tasks that a call has for the worker. -/
def Call.tasks : Call → List Task
  | .execute query => [.execute query]
  | .store name => [.fetch name]
  | .close => [.shutdown]
  | .wait | .rows _ | .code | .join | .duplicate | .drop => []

def Deed.given : Deed → List Task
  | .began call => call.tasks
  | _ => []

/-- The task that a call at this stage has not handed over yet. -/
def Stage.held : Stage → List Task
  | .marking name => [.fetch name]
  | stage => stage.task?.toList

theorem Call.held_stage (call : Call) : call.stage.held = call.tasks := by
  cases call <;> rfl

theorem Stage.held_of_isIdle
    {stage : Stage} (h : stage.isIdle = true) : stage.held = [] := by
  cases stage <;> first | rfl | cases h

/-- There is at most one call, and these are the tasks that it has not handed over yet. -/
inductive Carries : Multiset Stage → List Task → Prop
  | idle : Carries 0 []
  | busy (stage : Stage) : Carries {stage} stage.held

theorem Carries.of_zero
    {carried : List Task} (h : Carries 0 carried) : carried = [] := by
  generalize hstages : (0 : Multiset Stage) = stages at h
  cases h with
  | idle => rfl
  | busy stage => exact absurd hstages.symm (Multiset.singleton_ne_zero stage)

theorem Carries.of_cons
    {stage : Stage} {others : Multiset Stage} {carried : List Task}
    (h : Carries (stage ::ₘ others) carried) : others = 0 ∧ carried = stage.held := by
  generalize hstages : stage ::ₘ others = stages at h
  cases h with
  | idle => exact absurd hstages (Multiset.cons_ne_zero)
  | busy other =>
      obtain ⟨hstage, hothers⟩ := (Multiset.cons_eq_cons.mp hstages).resolve_right (by simp)
      exact ⟨hothers, by rw [hstage]⟩

/-- Every task that was given has been sent or refused, or its call is under way. -/
structure Handed (stages : Multiset Stage) (given : List Task) (l : Ledger) : Prop where
  given : ∃ carried, Carries stages carried ∧ given = l.sent ++ l.rejected ++ carried
  /-- Nothing is sent after a task was refused. -/
  sending : ∀ task, .sending task ∈ stages → l.rejected = []

section Visits

variable {t t' : Terminal} {stages stages' : Multiset Stage} {deeds : List Deed} {l : Ledger}
  {given : List Task}

theorem Advances.held
    {stage next : Stage} (h : Advances t stage deeds t' (.goOn next)) :
    deeds = [] ∧ next.held = stage.held := by
  cases h <;> exact ⟨rfl, rfl⟩

theorem Handed.advance
    {stage : Stage} {p : Progress} (h : Handed {stage} given l) (horderly : Orderly t {stage} l)
    (hadvances : Advances t stage deeds t' p) :
    Handed p.stages (given ++ deeds.flatMap Deed.given) (l.recordAll deeds) := by
  obtain ⟨carried, hcarries, hgiven⟩ := h.given
  obtain rfl : carried = stage.held := (Carries.of_cons hcarries).2
  rcases p with next | answer
  · obtain ⟨rfl, hheld⟩ := hadvances.held
    refine ⟨⟨next.held, Carries.busy next, ?_⟩, ?_⟩
    · rw [hheld]
      simpa using hgiven
    · intro task hin
      obtain rfl : .sending task = next := Multiset.mem_singleton.mp hin
      cases hadvances with
      | count _ hopen =>
          by_contra hrejected
          simp [horderly.rejected hrejected] at hopen
  · refine ⟨⟨[], Carries.idle, ?_⟩, by simp [Progress.stages]⟩
    cases hadvances with
    | send task =>
        have hnone := h.sending task (Multiset.mem_singleton_self _)
        simp [hgiven, Ledger.record, hnone, Deed.given, Stage.held, Stage.task?]
    | reject task => simp [hgiven, Ledger.record, Deed.given, Stage.held, Stage.task?]
    | read idle => simpa [Stage.held_of_isIdle idle] using hgiven
    | duplicate => simpa [Stage.held, Stage.task?] using hgiven
    | give => simpa [Stage.held, Stage.task?] using hgiven

theorem Handed.visit
    (h : Handed stages given l) (horderly : Orderly t stages l)
    (hvisit : Visit t stages deeds t' stages') (hone : stages'.card ≤ 1) :
    Handed stages' (given ++ deeds.flatMap Deed.given) (l.recordAll deeds) := by
  cases hvisit with
  | pass => simpa using h
  | work _ works =>
      obtain ⟨hgiven, hsending⟩ := h
      cases works <;> exact ⟨by simpa [Ledger.record, Deed.given] using hgiven, hsending⟩
  | begin t stages call =>
      obtain rfl : stages = 0 := by simpa using hone
      obtain ⟨carried, hcarries, hgiven⟩ := h.given
      obtain rfl := hcarries.of_zero
      refine ⟨⟨_, Carries.busy call.stage, ?_⟩, ?_⟩
      · simp [hgiven, Ledger.record, Deed.given, call.held_stage]
      · intro task hin
        cases call <;> simp [Call.stage] at hin
  | goOn others advances =>
      obtain ⟨carried, hcarries, -⟩ := h.given
      obtain ⟨rfl, -⟩ := hcarries.of_cons
      rw [Multiset.add_zero]
      exact h.advance horderly advances

theorem Advances.phase
    {stage : Stage} {p : Progress} (h : Advances t stage deeds t' p) : t'.phase = t.phase := by
  cases h with
  | reject task => cases task <;> rfl
  | _ => rfl

/-- A worker that leaves runs no round. -/
theorem Visit.rounds_of_isExit
    (h : Visit t stages deeds t' stages') (hexit : t.phase.isExit = true) :
    deeds.filterMap Deed.round? = [] := by
  cases h with
  | pass => rfl
  | begin => rfl
  | work _ works =>
      cases works with
      | execute hphase => simp [hphase, Phase.isExit] at hexit
      | fetch hphase => simp [hphase, Phase.isExit] at hexit
      | _ => rfl
  | goOn _ advances => cases advances <;> rfl

end Visits

/-! ## The close of a connection -/

/-- What the database has answered to closes: nothing while the worker stays or after a round was
its last, and once if the worker was told to leave. -/
def Shut (replies : List (Reply Unit)) (l : Ledger) : Phase → Prop
  | .crashing | .leaving | .sealing | .dropping | .gone =>
      (l.current = none → ∃ reply, replies = [reply]) ∧ (l.current ≠ none → replies = [])
  | _ => replies = []

theorem Shut.isExit
    {replies : List (Reply Unit)} {l : Ledger} {phase : Phase} (h : Shut replies l phase)
    (hreplies : replies ≠ []) : phase.isExit = true := by
  cases phase <;> first | rfl | exact absurd h hreplies

section Visits

variable {t t' : Terminal} {stages stages' : Multiset Stage} {deeds : List Deed} {l : Ledger}
  {replies : List (Reply Unit)}

theorem Shut.work
    {db : Database σ} {w w' : σ} (h : Shut replies l t.phase)
    (hworks : Works db w t deeds w' t') (hstays : t.phase = .closing → t'.phase = .closing) :
    Shut replies (l.recordAll deeds) t'.phase := by
  cases hworks with
  | execute hphase =>
      rename_i query reply _
      have hnone : replies = [] := by rw [hphase] at h; exact h
      cases reply with
      | crashed message => exact ⟨fun hcurrent => (by cases hcurrent), fun _ => hnone⟩
      | done result => exact hnone
      | refused d => exact hnone
  | fetch hphase =>
      rename_i name reply _
      have hnone : replies = [] := by rw [hphase] at h; exact h
      cases reply with
      | crashed message => exact ⟨fun hcurrent => (by cases hcurrent), fun _ => hnone⟩
      | done result => exact hnone
      | refused d => exact hnone
  | close hphase =>
      rename_i reply _
      have hclosing := hstays hphase
      cases reply <;> cases hclosing
  | take hphase =>
      rename_i task rest _
      rw [hphase] at h
      cases task <;> exact h
  | desert hphase =>
      rw [hphase] at h
      exact h
  | _ =>
      rename_i hphase
      rw [hphase] at h
      exact h

theorem Shut.visit
    (h : Shut replies l t.phase) (hvisit : Visit t stages deeds t' stages')
    (hstays : t.phase = .closing → t'.phase = .closing) :
    Shut replies (l.recordAll deeds) t'.phase := by
  cases hvisit with
  | pass => exact h
  | begin => exact h
  | work _ works => exact h.work works hstays
  | goOn _ advances =>
      cases advances with
      | reject task => cases task <;> exact h
      | _ => exact h

/-- A worker closes its connection when it was told to leave. -/
theorem Shut.close
    (h : Shut replies l t.phase) (haccounted : Accounted t stages l) (hphase : t.phase = .closing)
    (reply : Reply Unit) : Shut (replies ++ [reply]) l (.afterClose reply) := by
  have hretired : l.Retired := haccounted.leaving_of hphase
  rw [hphase] at h
  obtain rfl : replies = [] := h
  cases reply <;> exact ⟨fun _ => ⟨_, rfl⟩, fun hcurrent => absurd hretired.1 hcurrent⟩

end Visits

/-! ## Errands -/

/-- What a worker asks the database, with the answer. -/
inductive Errand where
  | ran (round : Round)
  | closed (reply : Reply Unit)

/-- What becomes of tasks that were given in this order. -/
inductive Served (given : List Task) : List Errand → Prop
  /-- Each gets its round, and then the connection is closed. -/
  | closed (rounds : List Round) (reply : Reply Unit) (tasks : rounds.map Round.task = given)
      (survived : ∀ round ∈ rounds, round.isCrash = false) :
      Served given (rounds.map .ran ++ [.closed reply])
  /-- The database does not survive one of the rounds, and nothing comes after it. -/
  | lost (rounds : List Round) (last : Round)
      (tasks : (rounds ++ [last]).map Round.task <+: given)
      (survived : ∀ round ∈ rounds, round.isCrash = false) (crash : last.isCrash = true) :
      Served given ((rounds ++ [last]).map .ran)

/-- What a prefix says about tasks before the shutdown. -/
theorem prefix_of_prefix_shutdown
    {tasks given : List Task} (h : tasks <+: given ++ [.shutdown]) (hshutdown : .shutdown ∉ tasks) :
    tasks <+: given := by
  rcases List.prefix_concat_iff.mp h with rfl | hinitial
  · simp at hshutdown
  · exact hinitial

theorem tasks_eq_of_prefix_shutdown
    {tasks given : List Task} (h : tasks ++ [Task.shutdown] <+: given ++ [Task.shutdown])
    (hshutdown : .shutdown ∉ given) : tasks = given := by
  rcases List.prefix_concat_iff.mp h with heq | hinitial
  · exact List.append_cancel_right heq
  · exact absurd (hinitial.subset (by simp)) hshutdown

theorem Round.shutdown_notMem (rounds : List Round) : .shutdown ∉ rounds.map Round.task := by
  intro hin
  obtain ⟨round, -, htask⟩ := List.mem_map.mp hin
  cases round <;> cases htask

/-- What has become of the tasks once the worker is gone. -/
theorem Accounted.served
    {t : Terminal} {l : Ledger} {given : List Task} {replies : List (Reply Unit)}
    (h : Accounted t 0 l) (hgone : t.phase = .gone) (hdeserted : l.deserted = false)
    (hshut : Shut replies l t.phase) (hgiven : given ++ [.shutdown] = l.sent ++ l.rejected)
    (hshutdown : .shutdown ∉ given) :
    Served given (l.rounds.map .ran ++ replies.map .closed) := by
  rw [hgone] at hshut
  have htaken : l.taken <+: given ++ [.shutdown] := by
    rw [hgiven]
    exact h.orderly.taken_prefix.trans (List.prefix_append _ _)
  have hleaving := h.leaving_of hgone
  rcases hleaving with ⟨hcurrent, hall⟩ | ⟨round, hcurrent, hcrash, hlast⟩
  · obtain ⟨reply, rfl⟩ := hshut.1 hcurrent
    have htold : l.taken = l.tasks ++ [.shutdown] := hall.resolve_left (by simp [hdeserted])
    rw [htold] at htaken
    have hrounds : l.rounds = l.completed := by simp [Ledger.rounds, hcurrent]
    rw [hrounds]
    exact Served.closed _ reply (tasks_eq_of_prefix_shutdown htaken hshutdown) h.unhurt.completed
  · obtain rfl : replies = [] := hshut.2 (by simp [hcurrent])
    have hrounds : l.rounds = l.completed ++ [round] := by simp [Ledger.rounds, hcurrent]
    have htasks : (l.completed ++ [round]).map Round.task = l.taken := by
      rw [hlast, List.map_append]
      rfl
    rw [hrounds, List.map_nil, List.append_nil]
    refine Served.lost _ round ?_ h.unhurt.completed hcrash
    refine prefix_of_prefix_shutdown ?_ (Round.shutdown_notMem _)
    rw [htasks]
    exact htaken

end Terminal

namespace Case

open Terminal (Errand Handed Served Shut getElem?_set_cases)

/-! ## One terminal of a case -/

/-- What the database answered to the closes of a terminal's connection. -/
def closingsOn (i : Nat) (h : List Happening) : List (Reply Unit) :=
  h.filterMap fun
    | .closed k reply => if k = i then some reply else none
    | _ => none

/-- The errand that a happening is for a worker. -/
def Happening.errand? (i : Nat) : Happening → Option Errand
  | .did k deed => if k = i then deed.round?.map .ran else none
  | .closed k reply => if k = i then some (.closed reply) else none
  | .opened _ _ | .left _ => none

/-- The errands of a worker, in order. -/
def errandsOn (i : Nat) (h : List Happening) : List Errand :=
  h.filterMap (Happening.errand? i)

/-- The tasks that a worker was given, in order. -/
def givenOn (i : Nat) (h : List Happening) : List Task :=
  (deedsOn i h).flatMap Deed.given

/-- What has happened on a terminal. -/
def ledgerOn (i : Nat) (h : List Happening) : Ledger :=
  Ledger.recordAll {} (deedsOn i h)

section Projections

variable (i k : Nat) (h h' : List Happening)

@[simp] theorem closingsOn_append :
    closingsOn i (h ++ h') = closingsOn i h ++ closingsOn i h' :=
  List.filterMap_append

@[simp] theorem errandsOn_append : errandsOn i (h ++ h') = errandsOn i h ++ errandsOn i h' :=
  List.filterMap_append

@[simp] theorem givenOn_append : givenOn i (h ++ h') = givenOn i h ++ givenOn i h' := by
  simp [givenOn]

@[simp] theorem ledgerOn_append :
    ledgerOn i (h ++ h') = (ledgerOn i h).recordAll (deedsOn i h') := by
  simp [ledgerOn, Ledger.recordAll_append]

@[simp] theorem closingsOn_did (deeds : List Deed) : closingsOn i (deeds.map (.did k)) = [] := by
  simp [closingsOn, List.filterMap_map]

@[simp] theorem closingsOn_closed (replies : List (Reply Unit)) :
    closingsOn i (replies.map (.closed k)) = if k = i then replies else [] := by
  by_cases hk : k = i <;> simp [closingsOn, List.filterMap_map, hk]

@[simp] theorem errandsOn_closed (replies : List (Reply Unit)) :
    errandsOn i (replies.map (.closed k)) = if k = i then replies.map .closed else [] := by
  by_cases hk : k = i <;>
    simp [errandsOn, List.filterMap_map, Function.comp_def, Happening.errand?, hk]

@[simp] theorem closingsOn_leaves (answer : Answer) : closingsOn i (leaves answer) = [] := by
  cases answer <;> rfl

@[simp] theorem errandsOn_leaves (answer : Answer) : errandsOn i (leaves answer) = [] := by
  cases answer <;> rfl

@[simp] theorem errandsOn_did (deeds : List Deed) :
    errandsOn i (deeds.map (.did k)) =
      if k = i then (deeds.filterMap Deed.round?).map .ran else [] := by
  by_cases hk : k = i <;>
    simp [errandsOn, List.filterMap_map, Function.comp_def, Happening.errand?, hk,
      List.map_filterMap]

end Projections

section Turns

variable {db : Database σ} {env : Environment} {m m' : Running σ} {hs : List Happening} {i : Nat}
  {t t' : Terminal}

theorem tearing_eq (ts : List Terminal) (caller : Caller) :
    ∃ k, ∃ deeds : List Deed, tearing ts caller = deeds.map (.did k) := by
  unfold tearing
  split
  · split
    · exact ⟨_, _, rfl⟩
    · exact ⟨0, [], rfl⟩
  · rename_i k call _ _ _
    exact ⟨k, [.began call], rfl⟩
  · exact ⟨0, [], rfl⟩

/-- By one turn a worker runs rounds or closes its connection. -/
theorem Turn.errands
    (h : Turn db env m hs m') (i : Nat) :
    errandsOn i hs = ((deedsOn i hs).filterMap Deed.round?).map .ran ++
      (closingsOn i hs).map .closed := by
  have hdid : ∀ k (deeds : List Deed), errandsOn i (deeds.map (.did k)) =
      ((deedsOn i (deeds.map (.did k))).filterMap Deed.round?).map .ran ++
        (closingsOn i (deeds.map (.did k))).map .closed := by
    intro k deeds
    by_cases hk : k = i <;> simp [hk]
  cases h with
  | work =>
      rename_i w k u u' deeds hu works
      by_cases hk : k = i <;> simp [hk]
  | begin =>
      rename_i k call _ _ _ _ _
      exact hdid k [.began call]
  | goOn => exact hdid _ _
  | answer =>
      rw [errandsOn_append, hdid, deedsOn_append, closingsOn_append]
      simp
  | tear =>
      rename_i caller _ _ _ _ _
      obtain ⟨k, deeds, htearing⟩ := tearing_eq m.terminals caller
      rw [htearing]
      exact hdid k deeds
  | _ => rfl

/-- A step closes the connection, or the worker stays at the close if it stands there. -/
def Shuts (t t' : Terminal) (deeds : List Deed) (replies : List (Reply Unit)) : Prop :=
  replies = [] ∧ (t.phase = .closing → t'.phase = .closing) ∨
    t.phase = .closing ∧ deeds = [] ∧ ∃ reply, replies = [reply] ∧ t'.phase = .afterClose reply

theorem works_shuts
    {w w' : σ} {deeds : List Deed} (h : Works db w t deeds w' t') :
    Shuts t t' deeds (closings db w t) := by
  by_cases hphase : t.phase = .closing
  · right
    cases h with
    | close _ answer => exact ⟨hphase, rfl, _, by simp [closings, hphase, answer], rfl⟩
    | _ => simp_all
  · left
    refine ⟨?_, fun hclosing => absurd hclosing hphase⟩
    unfold closings
    split
    · exact absurd ‹_› hphase
    · rfl

theorem Turn.shuts
    (h : Turn db env m hs m') (ht : m.terminals[i]? = some t) (ht' : m'.terminals[i]? = some t') :
    Shuts t t' (deedsOn i hs) (closingsOn i hs) := by
  have hi : i < m.terminals.length := (List.getElem?_eq_some_iff.mp ht).1
  have hsame : closingsOn i hs = [] → m'.terminals[i]? = some t →
      closingsOn i hs = [] ∧ (t.phase = .closing → t'.phase = .closing) := by
    intro hnone hkept
    rw [hkept] at ht'
    cases ht'
    exact ⟨hnone, id⟩
  have hcall : ∀ k stage u u' p, closingsOn i hs = [] → m.terminals[k]? = some u →
      u.callStep stage = some (u', p) → m'.terminals = m.terminals.set k u' →
      closingsOn i hs = [] ∧ (t.phase = .closing → t'.phase = .closing) := by
    intro k stage u u' p hnone hu hstep hterminals
    rw [hterminals] at ht'
    rcases getElem?_set_cases ht ht' with ⟨rfl, rfl⟩ | ⟨-, rfl⟩
    · rw [ht] at hu
      cases hu
      have hphase := (Terminal.advances_of_callStep hstep).phase
      exact ⟨hnone, fun hclosing => hphase.trans hclosing⟩
    · exact ⟨hnone, id⟩
  cases h with
  | work hu works =>
      rename_i w k u u' deeds
      rw [deedsOn_append, closingsOn_append, deedsOn_did, deedsOn_closed, closingsOn_did,
        closingsOn_closed, List.append_nil, List.nil_append]
      rcases getElem?_set_cases ht ht' with ⟨rfl, rfl⟩ | ⟨hk, rfl⟩
      · rw [ht] at hu
        cases hu
        rw [if_pos rfl, if_pos rfl]
        exact works_shuts works
      · exact Or.inl ⟨if_neg hk, id⟩
  | start =>
      left
      refine hsame rfl ?_
      rw [List.getElem?_append_left hi]
      exact ht
  | goOn _ hu hstep => exact Or.inl (hcall _ _ _ _ _ (closingsOn_did _ _ _) hu hstep rfl)
  | answer _ hu hstep =>
      exact Or.inl (hcall _ _ _ _ _ (by simp) hu hstep (terminals_receive _ _ _ _))
  | tear _ hstep =>
      left
      rename_i caller caller' outcome ts hthread
      obtain ⟨k, deeds, htearing⟩ := tearing_eq m.terminals caller
      have hnone : closingsOn i (tearing m.terminals caller) = [] := by
        rw [htearing, closingsOn_did]
      rcases Caller.step_cases hstep with
        ⟨_, _, _, -, -, rfl, -⟩ | ⟨k, stage, u, u', p, -, hu, hcallStep, rfl, -⟩
      · exact hsame hnone ht
      · exact hcall k stage u u' p hnone hu hcallStep rfl
  | _ => exact Or.inl (hsame rfl ht)

end Turns

/-- How the tasks, the errands and the phase of a worker belong together. -/
structure Tended (t : Terminal) (stages : Multiset Stage) (i : Nat) (h : List Happening) :
    Prop where
  accounted : Accounted t stages (ledgerOn i h)
  handed : Handed stages (givenOn i h) (ledgerOn i h)
  handles : t.handles ≠ 0
  deserted : (ledgerOn i h).deserted = false
  shut : Shut (closingsOn i h) (ledgerOn i h) t.phase
  errands : errandsOn i h =
    (ledgerOn i h).rounds.map .ran ++ (closingsOn i h).map .closed

/-- Every turn leaves a terminal tended. -/
theorem Turn.tended
    {db : Database σ} {env : Environment} {m m' : Running σ} {hs past : List Happening} {i : Nat}
    {t : Terminal} (hturn : Turn db env m hs m')
    (hproper : m.thread.Proper m.terminals.length) (ht : m.terminals[i]? = some t)
    (h : Tended t (m.stagesOn i) i past) :
    ∃ t', m'.terminals[i]? = some t' ∧ Tended t' (m'.stagesOn i) i (past ++ hs) := by
  have hgiving : .giving ∉ m.stagesOn i :=
    fun hin => (hproper.current (Terminal.mem_stagesOf.mp hin)).2 rfl
  obtain ⟨t', ht', hvisit⟩ := hturn.visit ht
  obtain ⟨hhandles, hdeserted⟩ := hvisit.attended (l := ledgerOn i past) hgiving h.handles
  refine ⟨t', ht', ?_, ?_, hhandles, ?_, ?_, ?_⟩
  · rw [ledgerOn_append]
    exact h.accounted.visit hvisit
  · rw [ledgerOn_append, givenOn_append]
    exact h.handed.visit h.accounted.orderly hvisit (Terminal.card_stagesOf_le _ _)
  · rw [ledgerOn_append, hdeserted]
    exact h.deserted
  · rw [ledgerOn_append, closingsOn_append]
    rcases hturn.shuts ht ht' with ⟨hnone, hstays⟩ | ⟨hphase, hdeeds, reply, hreply, hafter⟩
    · rw [hnone, List.append_nil]
      exact h.shut.visit hvisit hstays
    · rw [hdeeds, hreply, hafter]
      exact h.shut.close h.accounted hphase reply
  · rw [ledgerOn_append, errandsOn_append, closingsOn_append, h.errands, hturn.errands,
      h.accounted.rounds_visit hvisit]
    by_cases hreplies : closingsOn i past = []
    · simp [hreplies]
    · have hrounds := hvisit.rounds_of_isExit (h.shut.isExit hreplies)
      simp [hrounds]

/-- What has become of the tasks of a terminal whose worker is gone. -/
theorem Tended.served
    {t : Terminal} {i : Nat} {h : List Happening} {given : List Task} (htended : Tended t 0 i h)
    (hgone : t.isGone = true) (hgiven : givenOn i h = given ++ [.shutdown])
    (hshutdown : .shutdown ∉ given) : Served given (errandsOn i h) := by
  obtain ⟨carried, hcarries, hall⟩ := htended.handed.given
  obtain rfl := hcarries.of_zero
  rw [List.append_nil, hgiven] at hall
  have hphase : t.phase = .gone := by
    unfold Terminal.isGone at hgone
    split at hgone
    · assumption
    · cases hgone
  rw [htended.errands]
  exact htended.accounted.served hphase htended.deserted htended.shut hall hshutdown

end Case

end CaseSuite
