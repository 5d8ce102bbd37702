import CaseSuite.Proofs.Execution.Service

/-!
# The thread's way out

The body of a case ends once: at its end or at the first start, read or check that fails.  From
then on the thread closes every terminal that was started and joins them all after that, in the
order in which they were started, and nothing else.  `Thread.Tells` keeps this from step to step.
A join returns when the worker is gone, and `Thread.Joins` keeps how far the thread has come with
the join of each terminal.
-/

namespace CaseSuite

open Terminal (Advances Answer Call Caller Deed Stage Works getElem?_set_cases)

namespace Case

variable {σ : Type}

/-! ## Histories -/

/-- The calls that the thread began, with their terminals. -/
def callsIn (h : List Happening) : List (Nat × Call) :=
  h.filterMap fun
    | .did i (.began call) => some (i, call)
    | _ => none

/-- The terminals that were started, with their connections. -/
def openedIn (h : List Happening) : List (String × Nat) :=
  h.filterMap fun
    | .opened name connection => some (name, connection)
    | _ => none

/-- How the body ended. -/
def leftIn (h : List Happening) : List Outcome :=
  h.filterMap fun
    | .left outcome => some outcome
    | _ => none

section Projections

variable (h h' : List Happening)

@[simp] theorem callsIn_append : callsIn (h ++ h') = callsIn h ++ callsIn h' :=
  List.filterMap_append

@[simp] theorem openedIn_append : openedIn (h ++ h') = openedIn h ++ openedIn h' :=
  List.filterMap_append

@[simp] theorem leftIn_append : leftIn (h ++ h') = leftIn h ++ leftIn h' :=
  List.filterMap_append

end Projections

/-- Nothing happens but deeds of workers and steps of calls that are under way. -/
structure Internal (h : List Happening) : Prop where
  calls : callsIn h = []
  opened : openedIn h = []
  left : leftIn h = []

theorem Internal.append
    {h h' : List Happening} (hfirst : Internal h) (hsecond : Internal h') : Internal (h ++ h') := by
  constructor
  · simp [hfirst.calls, hsecond.calls]
  · simp [hfirst.opened, hsecond.opened]
  · simp [hfirst.left, hsecond.left]

theorem internal_did
    {deeds : List Deed} (i : Nat) (h : ∀ call, .began call ∉ deeds) :
    Internal (deeds.map (.did i)) := by
  induction deeds with
  | nil => exact ⟨rfl, rfl, rfl⟩
  | cons deed deeds ih =>
      have hrest := ih fun call hin => h call (List.mem_cons_of_mem _ hin)
      have hfirst : Internal [.did i deed] := by
        cases deed with
        | began call => exact absurd List.mem_cons_self (h call)
        | _ => exact ⟨rfl, rfl, rfl⟩
      exact hfirst.append hrest

theorem internal_closed
    (i : Nat) (replies : List (Reply Unit)) : Internal (replies.map (.closed i)) := by
  constructor
  · simp [callsIn, List.filterMap_map]
  · simp [openedIn, List.filterMap_map]
  · simp [leftIn, List.filterMap_map]

theorem internal_callDeeds
    (i : Nat) (t : Terminal) (stage : Stage) : Internal ((t.callDeeds stage).map (.did i)) := by
  refine internal_did i fun call hin => ?_
  unfold Terminal.callDeeds at hin
  split at hin
  · split at hin <;> simp at hin
  · simp at hin
  · simp at hin

theorem internal_work
    {db : Database σ} {w w' : σ} {t t' : Terminal} {deeds : List Deed}
    (works : Works db w t deeds w' t') (i : Nat) :
    Internal (deeds.map (.did i) ++ (closings db w t).map (.closed i)) := by
  refine (internal_did i fun call hin => ?_).append (internal_closed i _)
  cases works <;> simp at hin

/-! ## The thread -/

/-- What happens while the body runs: it does not end, and it closes and joins nothing. -/
structure InBody (h : List Happening) : Prop where
  stays : leftIn h = []
  calls : ∀ x ∈ callsIn h, x.2.stage.Ordinary

theorem InBody.append
    {h hs : List Happening} (hbody : InBody h) (hstays : leftIn hs = [])
    (hcalls : ∀ x ∈ callsIn hs, x.2.stage.Ordinary) : InBody (h ++ hs) := by
  constructor
  · simp [hbody.stays, hstays]
  · intro x hx
    rw [callsIn_append] at hx
    rcases List.mem_append.mp hx with hold | hnew
    · exact hbody.calls x hold
    · exact hcalls x hnew

theorem InBody.internal
    {h hs : List Happening} (hbody : InBody h) (hinternal : Internal hs) : InBody (h ++ hs) :=
  hbody.append hinternal.left (by simp [hinternal.calls])

/-- The body ends, and then the thread makes these calls. -/
structure Departs (h : List Happening) (outcome : Outcome) (calls : List (Nat × Call))
    (before after : List Happening) : Prop where
  split : h = before ++ .left outcome :: after
  body : InBody before
  once : leftIn after = []
  opened : openedIn after = []
  calls : callsIn after = calls

theorem departs_leave
    {h : List Happening} (hbody : InBody h) (outcome : Outcome) :
    Departs (h ++ [.left outcome]) outcome [] h [] :=
  ⟨rfl, hbody, rfl, rfl, rfl⟩

theorem Departs.append
    {h hs before after : List Happening} {outcome : Outcome} {calls : List (Nat × Call)}
    (hdeparts : Departs h outcome calls before after) (hleft : leftIn hs = [])
    (hopened : openedIn hs = []) :
    Departs (h ++ hs) outcome (calls ++ callsIn hs) before (after ++ hs) := by
  obtain ⟨rfl, hbody, honce, hnone, hcalls⟩ := hdeparts
  constructor
  · simp
  · exact hbody
  · simp [honce, hleft]
  · simp [hnone, hopened]
  · simp [hcalls]

theorem Departs.internal
    {h hs before after : List Happening} {outcome : Outcome} {calls : List (Nat × Call)}
    (hdeparts : Departs h outcome calls before after) (hinternal : Internal hs) :
    Departs (h ++ hs) outcome calls before (after ++ hs) := by
  have hmore := hdeparts.append hinternal.left hinternal.opened
  rw [hinternal.calls, List.append_nil] at hmore
  exact hmore

/-- What the thread has done, among `n` terminals. -/
def Thread.Tells (n : Nat) (h : List Happening) : Thread → Prop
  | .body _ | .calling _ _ _ _ => InBody h
  | .ending caller outcome => ∃ calls before after, Departs h outcome calls before after ∧
      calls ++ caller.todo = teardownCalls n
  | .returned outcome => ∃ before after, Departs h outcome (teardownCalls n) before after

theorem Thread.Tells.internal
    {n : Nat} {h hs : List Happening} {thread : Thread} (htells : thread.Tells n h)
    (hinternal : Internal hs) : thread.Tells n (h ++ hs) := by
  cases thread with
  | body rest => exact InBody.internal htells hinternal
  | calling i stage target rest => exact InBody.internal htells hinternal
  | ending caller outcome =>
      obtain ⟨calls, before, after, hdeparts, htodo⟩ := htells
      exact ⟨calls, before, _, hdeparts.internal hinternal, htodo⟩
  | returned outcome =>
      obtain ⟨before, after, hdeparts⟩ := htells
      exact ⟨before, _, hdeparts.internal hinternal⟩

/-- A call of the teardown moves from what is to do to what is done. -/
theorem Thread.Tells.tear
    {h : List Happening} {caller caller' : Caller} {outcome : Outcome} {ts ts' : List Terminal}
    (htells : (Thread.ending caller outcome).Tells ts.length h)
    (hstep : caller.step ts = some (ts', caller')) :
    (Thread.ending caller' outcome).Tells ts'.length (h ++ tearing ts caller) := by
  obtain ⟨calls, before, after, hdeparts, htodo⟩ := htells
  rcases Caller.step_cases hstep with
    ⟨k, call, todo, hidle, hcalls, rfl, -, hcalls'⟩ |
    ⟨k, stage, t, t', p, hcurrent, ht, -, rfl, -, hcalls'⟩
  · rw [tearing_idle hidle hcalls]
    refine ⟨_, _, _, hdeparts.append rfl rfl, ?_⟩
    rw [hcalls']
    simpa [callsIn, hcalls] using htodo
  · rw [tearing_busy hcurrent ht]
    refine ⟨_, _, _, hdeparts.internal (internal_callDeeds k t stage), ?_⟩
    rw [hcalls', List.length_set]
    exact htodo

theorem Turn.tells
    {db : Database σ} {env : Environment} {m m' : Running σ} {hs past : List Happening}
    (h : Turn db env m hs m') (htells : m.thread.Tells m.terminals.length past) :
    m'.thread.Tells m'.terminals.length (past ++ hs) := by
  have hleave : ∀ outcome, InBody past →
      (m.leave outcome).thread.Tells m.terminals.length (past ++ [.left outcome]) :=
    fun outcome hbody => ⟨[], past, [], departs_leave hbody outcome, List.nil_append _⟩
  cases h with
  | work ht works =>
      rw [List.length_set]
      exact htells.internal (internal_work works _)
  | finish hthread | refuse hthread | fail hthread =>
      rw [hthread] at htells
      exact hleave _ htells
  | start hthread =>
      rw [hthread] at htells
      exact InBody.append htells rfl (by simp [callsIn])
  | evaluate hthread | pass hthread =>
      rw [hthread] at htells
      rw [List.append_nil]
      exact htells
  | begin hthread ha hi hcall =>
      rw [hthread] at htells
      refine InBody.append htells rfl ?_
      intro x hx
      obtain rfl : x = _ := List.mem_singleton.mp hx
      exact ordinary_of_callOf? hcall
  | goOn hthread =>
      rw [hthread] at htells
      exact InBody.internal htells (internal_callDeeds _ _ _)
  | answer hthread =>
      rename_i k stage answer target rest t t' ht hstep
      rw [hthread] at htells
      have hbody := InBody.internal htells (internal_callDeeds k t stage)
      cases answer with
      | error e =>
          rw [← List.append_assoc]
          refine ⟨[], _, [], departs_leave hbody _, ?_⟩
          simp [Running.receive, Running.leave]
      | _ =>
          rw [leaves, List.append_nil]
          exact hbody
  | tear hthread hstep =>
      rw [hthread] at htells
      exact htells.tear hstep
  | «return» hthread hdone =>
      rw [hthread] at htells
      obtain ⟨calls, before, after, hdeparts, htodo⟩ := htells
      rw [(Caller.isDone_iff.mp hdone).2, List.append_nil] at htodo
      subst htodo
      rw [List.append_nil]
      exact ⟨before, after, hdeparts⟩

/-! ## Joins -/

/-- How far a teardown has come with joining a terminal. -/
inductive Joining (i : Nat) (t : Terminal) (caller : Caller) : Prop
  | ahead (htodo : (i, .join) ∈ caller.todo) (hjoinable : t.joinable = true)
      (hcurrent : caller.current ≠ some (i, .claiming))
  | claiming (htodo : (i, .join) ∉ caller.todo) (hjoinable : t.joinable = true)
      (hcurrent : caller.current = some (i, .claiming))
  | waiting (htodo : (i, .join) ∉ caller.todo) (hcurrent : caller.current = some (i, .joining))
  | joined (htodo : (i, .join) ∉ caller.todo) (hgone : t.isGone = true)

/-- The worker can be joined until the thread has joined it, and then it is gone. -/
def Thread.Joins (i : Nat) (t : Terminal) : Thread → Prop
  | .body _ | .calling _ _ _ _ => t.joinable = true
  | .ending caller _ => Joining i t caller
  | .returned _ => t.isGone = true

theorem isGone_of_phase
    {t t' : Terminal} (h : t'.phase = t.phase) : t'.isGone = t.isGone := by
  simp [Terminal.isGone, h]

theorem works_joinable
    {db : Database σ} {w w' : σ} {t t' : Terminal} {deeds : List Deed}
    (h : Works db w t deeds w' t') : t'.joinable = t.joinable ∧ t.isGone = false := by
  cases h <;> simp_all [Terminal.isGone, Terminal.store, Terminal.finish]

theorem advances_joinable
    {t t' : Terminal} {stage : Stage} {deeds : List Deed} {p : Terminal.Progress}
    (h : Advances t stage deeds t' p) (hstage : stage ≠ .claiming) :
    t'.joinable = t.joinable := by
  cases h with
  | claim => exact absurd rfl hstage
  | reject task => cases task <;> rfl
  | _ => rfl

theorem advances_current_ne
    {t t' : Terminal} {stage : Stage} {deeds : List Deed} {p : Terminal.Progress}
    (h : Advances t stage deeds t' p) (k i : Nat) : p.current k ≠ some (i, .claiming) := by
  cases h <;> simp [Terminal.Progress.current]

section Joins

variable {i : Nat} {t t' : Terminal} {caller caller' : Caller} {ts ts' : List Terminal}

/-- A worker that moves is not gone, so nothing has been joined yet. -/
theorem Thread.Joins.work
    {db : Database σ} {w w' : σ} {deeds : List Deed} {thread : Thread} (h : thread.Joins i t)
    (works : Works db w t deeds w' t') : thread.Joins i t' := by
  obtain ⟨hjoinable, hhere⟩ := works_joinable works
  cases thread with
  | body | calling => exact hjoinable.trans h
  | ending =>
      cases h with
      | ahead htodo hbefore hcurrent =>
          exact Joining.ahead htodo (hjoinable.trans hbefore) hcurrent
      | claiming htodo hbefore hcurrent =>
          exact Joining.claiming htodo (hjoinable.trans hbefore) hcurrent
      | waiting htodo hcurrent => exact Joining.waiting htodo hcurrent
      | joined _ hgone => simp [hhere] at hgone
  | returned => simp [Thread.Joins, hhere] at h

/-- A call is begun. -/
theorem Joining.begin
    {k : Nat} {call : Call} {todo : List (Nat × Call)} (h : Joining i t caller)
    (hnodup : caller.todo.Nodup) (hidle : caller.current = none)
    (htodo : caller.todo = (k, call) :: todo) (hcurrent' : caller'.current = some (k, call.stage))
    (htodo' : caller'.todo = todo) : Joining i t caller' := by
  rw [htodo] at hnodup
  have hfirst := (List.nodup_cons.mp hnodup).1
  cases h with
  | ahead hin hjoinable =>
      rw [htodo] at hin
      rcases List.mem_cons.mp hin with heq | hlater
      · cases heq
        exact Joining.claiming (htodo' ▸ hfirst) hjoinable hcurrent'
      · refine Joining.ahead (htodo' ▸ hlater) hjoinable ?_
        rw [hcurrent']
        intro hclaiming
        obtain ⟨rfl, hstage⟩ := Prod.mk.inj (Option.some.inj hclaiming)
        obtain rfl : call = .join := by cases call <;> first | rfl | cases hstage
        exact hfirst hlater
  | claiming _ _ hcurrent => simp [hidle] at hcurrent
  | waiting _ hcurrent => simp [hidle] at hcurrent
  | joined hnot hgone =>
      refine Joining.joined ?_ hgone
      rw [htodo']
      rw [htodo] at hnot
      exact fun hin => hnot (List.mem_cons_of_mem _ hin)

/-- The call that is under way goes on. -/
theorem Joining.goOn
    {k : Nat} {stage : Stage} {u u' : Terminal} {p : Terminal.Progress} (h : Joining i t caller)
    (hcurrent : caller.current = some (k, stage)) (hu : ts[k]? = some u)
    (hstep : u.callStep stage = some (u', p)) (hcurrent' : caller'.current = p.current k)
    (htodo' : caller'.todo = caller.todo) (ht : ts[i]? = some t)
    (ht' : (ts.set k u')[i]? = some t') : Joining i t' caller' := by
  have hadvances := Terminal.advances_of_callStep hstep
  have hnext : caller'.current ≠ some (i, .claiming) := by
    rw [hcurrent']
    exact advances_current_ne hadvances k i
  rcases getElem?_set_cases ht ht' with ⟨rfl, rfl⟩ | ⟨hk, rfl⟩
  · rw [ht] at hu
    cases hu
    have hgone := isGone_of_phase hadvances.phase
    cases h with
    | ahead htodo hjoinable hclaiming =>
        have hstage : stage ≠ .claiming := by
          rintro rfl
          exact hclaiming hcurrent
        rw [← htodo'] at htodo
        exact Joining.ahead htodo ((advances_joinable hadvances hstage).trans hjoinable) hnext
    | claiming htodo hjoinable hclaiming =>
        rw [hcurrent] at hclaiming
        cases hclaiming
        rw [Terminal.callStep, if_pos hjoinable] at hstep
        cases hstep
        exact Joining.waiting (htodo' ▸ htodo) hcurrent'
    | waiting htodo hjoining =>
        rw [hcurrent] at hjoining
        cases hjoining
        rw [Terminal.callStep] at hstep
        split at hstep
        · rename_i hleft
          cases hstep
          exact Joining.joined (htodo' ▸ htodo) hleft
        · cases hstep
    | joined htodo hleft => exact Joining.joined (htodo' ▸ htodo) (hgone.trans hleft)
  · cases h with
    | ahead htodo hjoinable => exact Joining.ahead (htodo' ▸ htodo) hjoinable hnext
    | claiming _ _ hclaiming =>
        rw [hcurrent] at hclaiming
        cases hclaiming
        exact absurd rfl hk
    | waiting _ hjoining =>
        rw [hcurrent] at hjoining
        cases hjoining
        exact absurd rfl hk
    | joined htodo hleft => exact Joining.joined (htodo' ▸ htodo) hleft

end Joins

theorem nodup_teardownCalls (n : Nat) : (teardownCalls n).Nodup := by
  refine List.nodup_append.mpr ⟨?_, ?_, ?_⟩
  · exact List.nodup_range.map fun i j h => (Prod.mk.inj h).1
  · exact List.nodup_range.map fun i j h => (Prod.mk.inj h).1
  · intro x hx y hy heq
    obtain ⟨i, -, rfl⟩ := List.mem_map.mp hx
    obtain ⟨j, -, rfl⟩ := List.mem_map.mp hy
    cases heq

theorem joining_leave
    {n i : Nat} {t : Terminal} (hi : i < n) (hjoinable : t.joinable = true) :
    Joining i t { todo := teardownCalls n } := by
  refine Joining.ahead ?_ hjoinable (by simp)
  exact List.mem_append_right _ (List.mem_map.mpr ⟨i, List.mem_range.mpr hi, rfl⟩)

/-- A call of the body leaves a terminal as joinable as it is. -/
theorem callStep_joinable
    {ts : List Terminal} {n k i : Nat} {stage : Stage} {target : Option String}
    {rest : List Action} {t t' u u' : Terminal} {p : Terminal.Progress}
    (hproper : (Thread.calling k stage target rest).Proper n) (hu : ts[k]? = some u)
    (hstep : u.callStep stage = some (u', p)) (ht : ts[i]? = some t)
    (ht' : (ts.set k u')[i]? = some t') : t'.joinable = t.joinable := by
  rcases getElem?_set_cases ht ht' with ⟨rfl, rfl⟩ | ⟨-, rfl⟩
  · rw [ht] at hu
    cases hu
    refine advances_joinable (Terminal.advances_of_callStep hstep) ?_
    rintro rfl
    exact hproper.2.2 (by simp)
  · rfl

theorem Turn.joins
    {db : Database σ} {env : Environment} {m m' : Running σ} {hs past : List Happening} {i : Nat}
    {t t' : Terminal} (h : Turn db env m hs m') (hproper : m.thread.Proper m.terminals.length)
    (htells : m.thread.Tells m.terminals.length past) (ht : m.terminals[i]? = some t)
    (ht' : m'.terminals[i]? = some t') (hjoins : m.thread.Joins i t) : m'.thread.Joins i t' := by
  have hi : i < m.terminals.length := (List.getElem?_eq_some_iff.mp ht).1
  have hsame : m'.terminals[i]? = some t → t' = t := by
    intro hkept
    rw [hkept] at ht'
    exact (Option.some.inj ht').symm
  cases h with
  | work hu works =>
      rcases getElem?_set_cases ht ht' with ⟨rfl, rfl⟩ | ⟨hk, rfl⟩
      · rw [ht] at hu
        cases hu
        exact hjoins.work works
      · exact hjoins
  | finish hthread | refuse hthread | fail hthread =>
      rw [hthread] at hjoins
      obtain rfl := hsame ht
      exact joining_leave hi hjoins
  | start hthread =>
      rw [hthread] at hjoins
      obtain rfl := hsame (by rw [List.getElem?_append_left hi]; exact ht)
      exact hjoins
  | evaluate hthread | pass hthread | begin hthread =>
      rw [hthread] at hjoins
      obtain rfl := hsame ht
      exact hjoins
  | goOn hthread hu hstep =>
      rw [hthread] at hjoins hproper
      exact (callStep_joinable hproper hu hstep ht ht').trans hjoins
  | answer hthread hu hstep =>
      rename_i k stage answer target rest u u'
      rw [hthread] at hjoins hproper
      rw [terminals_receive] at ht'
      have hjoinable := (callStep_joinable hproper hu hstep ht ht').trans hjoins
      cases answer with
      | error e => exact joining_leave (by simpa using hi) hjoinable
      | _ => exact hjoinable
  | tear hthread hstep =>
      rename_i caller caller' outcome ts
      rw [hthread] at hjoins htells
      obtain ⟨calls, before, after, -, htodo⟩ := htells
      have hnodup : caller.todo.Nodup := by
        have hall := nodup_teardownCalls m.terminals.length
        rw [← htodo] at hall
        exact (List.nodup_append.mp hall).2.1
      rcases Caller.step_cases hstep with
        ⟨k, call, todo, hidle, hcalls, rfl, hcurrent, hcalls'⟩ |
        ⟨k, stage, u, u', p, hcurrent, hu, hcallStep, rfl, hcurrent', hcalls'⟩
      · obtain rfl := hsame ht
        exact Joining.begin hjoins hnodup hidle hcalls hcurrent hcalls'
      · exact Joining.goOn hjoins hcurrent hu hcallStep hcurrent' hcalls' ht ht'
  | «return» hthread hdone =>
      rw [hthread] at hjoins
      obtain rfl := hsame ht
      obtain ⟨hidle, hnone⟩ := Caller.isDone_iff.mp hdone
      cases hjoins with
      | ahead htodo => simp [hnone] at htodo
      | claiming _ _ hcurrent => simp [hidle] at hcurrent
      | waiting _ hcurrent => simp [hidle] at hcurrent
      | joined _ hgone => exact hgone

end Case
end CaseSuite
