import Cppgres.NonLocal.Ends
import Cppgres.Postgres.Backend
import Cppgres.Function.Invocation

/-!
# Security contexts

`security_context` of `role.hpp`: a guard that sets the current user and the flags of the security
context, and writes back what it found. The flags that it is given are all the flags: none of those
around it is added. What is in force is what the innermost guard that lives was given.
-/
namespace Cppgres
open NonLocal

/-- `enum security_context_flag : int` -/
abbrev SecurityContextFlag := BitVec 32

def securityNone : SecurityContextFlag := 0x0000
/-- `SECURITY_LOCAL_USERID_CHANGE` -/
def securityLocalUserIdChange : SecurityContextFlag := 0x0001
/-- `SECURITY_RESTRICTED_OPERATION` -/
def securityRestrictedOperation : SecurityContextFlag := 0x0002
/-- `SECURITY_NOFORCE_RLS` -/
def securityNoforceRls : SecurityContextFlag := 0x0004

inductive Restriction where
  | localUserIdChange
  | restrictedOperation
  | noforceRls
  deriving DecidableEq, Repr

def Restriction.flag : Restriction → SecurityContextFlag
  | .localUserIdChange => securityLocalUserIdChange
  | .restrictedOperation => securityRestrictedOperation
  | .noforceRls => securityNoforceRls

def Restriction.within (restriction : Restriction) (flags : SecurityContextFlag) : Bool :=
  flags &&& restriction.flag != 0

/-- What `GetUserIdAndSecContext` reads and `SetUserIdAndSecContext` writes. -/
structure UserIdAndSecContext where
  userid : Oid
  secContext : SecurityContextFlag
  deriving DecidableEq, Repr

/-- The variables of `miscinit.c`. -/
structure SecurityBackend where
  current : UserIdAndSecContext
  outerUserId : Oid
  setRoleIsActive : Bool
  deriving DecidableEq, Repr

namespace SecurityBackend

def getCurrentRoleId (b : SecurityBackend) : Oid :=
  if b.setRoleIsActive then b.outerUserId else invalidOid

def setUserIdAndSecContext (b : SecurityBackend) (userid : Oid) (secContext : SecurityContextFlag) :
    SecurityBackend := { b with current := ⟨userid, secContext⟩ }

def inLocalUserIdChange (b : SecurityBackend) : Bool :=
  Restriction.localUserIdChange.within b.current.secContext

def inSecurityRestrictedOperation (b : SecurityBackend) : Bool :=
  Restriction.restrictedOperation.within b.current.secContext

def inNoForceRlsOperation (b : SecurityBackend) : Bool :=
  Restriction.noforceRls.within b.current.secContext

end SecurityBackend

abbrev SecurityCode (α : Type) := Code CppException SigjmpBuf SecurityBackend α

/-- How a `role` is made. -/
inductive Role where
  | current
  | ofOid (oid : Oid)
  | named (name : String)
  deriving DecidableEq, Repr

/-- `getRoleOid` is the lookup under its guard. -/
def Role.construct (getRoleOid : String → Except CppException Oid) (role : Role) : SecurityCode Oid :=
  match role with
  | .current => do
    let b ← Code.get
    pure (if b.getCurrentRoleId ≠ invalidOid then b.getCurrentRoleId else b.current.userid)
  | .ofOid oid => pure oid
  | .named name =>
    match getRoleOid name with
    | .ok oid => pure oid
    | .error exception => Code.throwing exception

structure SecurityContext where
  role : Oid
  user : Oid
  ctx : SecurityContextFlag
  deriving DecidableEq, Repr

structure SecurityDecl where
  role : Role
  context : SecurityContextFlag := securityNone
  deriving DecidableEq, Repr

namespace SecurityContext

/-- `security_context(role r, security_context_flag context)` -/
def construct (getRoleOid : String → Except CppException Oid) (decl : SecurityDecl) :
    SecurityCode SecurityContext := do
  let role ← decl.role.construct getRoleOid
  let b ← Code.get
  let this : SecurityContext := { role, user := b.current.userid, ctx := b.current.secContext }
  Code.modify fun b => b.setUserIdAndSecContext role decl.context
  pure this

/-- `~security_context()` -/
def destroy (this : SecurityContext) : SecurityCode Unit :=
  Code.modify fun b => b.setUserIdAndSecContext this.user this.ctx

end SecurityContext

/-- Any other code, which may throw. It sets no user and no flags. -/
structure SecurityCall where
  call : SecurityBackend → Except CppException Unit × SecurityBackend
  current : ∀ b, (call b).2.current = b.current

def SecurityCall.run (call : SecurityCall) : SecurityCode Unit := do
  let b ← Code.get
  Code.modify fun _ => (call.call b).2
  match (call.call b).1 with
  | .ok _ => pure ()
  | .error exception => Code.throwing exception

/-- A guard has no methods. -/
abbrev securityContexts (getRoleOid : String → Except CppException Oid) :
    GuardClass CppException SigjmpBuf SecurityBackend where
  Decl := SecurityDecl
  Obj := SecurityContext
  Op := Empty
  Act := SecurityCall
  construct := SecurityContext.construct getRoleOid
  destroy := SecurityContext.destroy
  method op _ := nomatch op
  act call := call.run
  drop _ := pure ()

variable {getRoleOid : String → Except CppException Oid}

/-- What a guard sets. -/
def givenBy (guard : Live (securityContexts getRoleOid)) : UserIdAndSecContext :=
  ⟨guard.obj.role, guard.decl.context⟩

/-- What is in force: what the innermost guard was given. -/
def inForce (outside : UserIdAndSecContext) :
    List (Live (securityContexts getRoleOid)) → UserIdAndSecContext
  | [] => outside
  | guard :: _ => givenBy guard

/-- The guards that live when an action begins. One that is closed is among them. -/
def guardsOf (e : Event (securityContexts getRoleOid)) : List (Live (securityContexts getRoleOid)) :=
  match e.action with
  | .closed guard _ => guard :: e.live
  | _ => e.live

/-- A guard that was given the restrictions that it found. -/
def Passes (guard : Live (securityContexts getRoleOid)) : Prop :=
  ∀ restriction : Restriction, restriction.within guard.entry.store.current.secContext = true →
    restriction.within guard.decl.context = true

/-- The restrictions that the living guards found are in force. -/
def Tightened (e : Event (securityContexts getRoleOid)) : Prop :=
  ∀ guard ∈ guardsOf e, ∀ restriction : Restriction,
    restriction.within guard.entry.store.current.secContext = true →
      restriction.within e.before.store.current.secContext = true

/-- What the guards do to the user and to the flags. -/
structure Secured (outside : UserIdAndSecContext) (e : Event (securityContexts getRoleOid)) :
    Prop where
  innermost : e.before.store.current = inForce outside (guardsOf e)
  tightened : (∀ guard ∈ guardsOf e, Passes guard) → Tightened e
  restored : ∀ guard unwinding, e.action = .closed guard unwinding →
    e.ending = .returned ∧ e.after.store.current = guard.entry.store.current

/-! ## The rules -/

section Rules
variable {outside : UserIdAndSecContext} {guard : Live (securityContexts getRoleOid)}
  {live rest : List (Live (securityContexts getRoleOid))}
  {s : Machine (Stage (securityContexts getRoleOid))}

/-- Each guard saved what was in force around it. -/
def Saved (outside : UserIdAndSecContext) : List (Live (securityContexts getRoleOid)) → Prop
  | [] => True
  | guard :: rest =>
    (⟨guard.obj.user, guard.obj.ctx⟩ : UserIdAndSecContext) = inForce outside rest ∧
      guard.entry.store.current = inForce outside rest ∧ Saved outside rest

def SecurityKept (outside : UserIdAndSecContext) (b : SecurityBackend)
    (live : List (Live (securityContexts getRoleOid))) : Prop :=
  b.current = inForce outside live ∧ Saved outside live

/-- Restrictions pass from each guard to the one inside it. -/
theorem Saved.within_inForce (saved : Saved outside live) (pass : ∀ guard ∈ live, Passes guard)
    (member : guard ∈ live) (restriction : Restriction)
    (found : restriction.within guard.entry.store.current.secContext = true) :
    restriction.within (inForce outside live).secContext = true := by
  induction live with
  | nil => cases member
  | cons inner rest ih =>
    obtain ⟨_, entered, below⟩ := saved
    have inner_passes := pass inner List.mem_cons_self
    have rest_passes : ∀ guard ∈ rest, Passes guard :=
      fun guard member => pass guard (List.mem_cons_of_mem _ member)
    cases List.mem_cons.mp member with
    | inl same =>
      rw [same] at found
      exact inner_passes restriction found
    | inr outer =>
      have around := ih below rest_passes outer
      rw [← entered] at around
      exact inner_passes restriction around

theorem Role.construct_ends (role : Role) (s : Machine SecurityBackend) :
    (role.construct getRoleOid).Ends s (fun _ b => b = s.store) fun _ b => b = s.store := by
  cases role with
  | current => exact Code.Ends.of_returned (t := s) rfl rfl rfl
  | ofOid oid => exact Code.Ends.of_returned (t := s) rfl rfl rfl
  | named name =>
    unfold construct
    dsimp only
    cases getRoleOid name with
    | ok oid => exact .pure rfl
    | error exception => exact .throwing rfl

/-- A constructor that returns sets what it was given and saves what it found; one that throws leaves
everything as it was. -/
theorem SecurityContext.construct_ends (decl : SecurityDecl) (s : Machine SecurityBackend) :
    (construct getRoleOid decl).Ends s
      (fun this b => b.current = ⟨this.role, decl.context⟩ ∧
        (⟨this.user, this.ctx⟩ : UserIdAndSecContext) = s.store.current)
      fun _ b => b.current = s.store.current := by
  refine .bind (Role.construct_ends decl.role s) ?_ fun _ b same => by rw [same]
  intro role t count same
  rw [← same]
  exact .of_returned rfl rfl ⟨rfl, rfl⟩

theorem SecurityContext.destroy_ends (this : SecurityContext) (s : Machine SecurityBackend) :
    this.destroy.Ends s (fun _ b => b.current = ⟨this.user, this.ctx⟩) fun _ _ => False :=
  .of_returned rfl rfl rfl

theorem SecurityCall.run_ends (call : SecurityCall) (s : Machine SecurityBackend) :
    call.run.Ends s (fun _ b => b.current = s.store.current)
      fun _ b => b.current = s.store.current := by
  refine .get_bind (.after (Code.modify_apply _ s) rfl ?_)
  cases (call.call s.store).1 with
  | ok done => exact .pure (call.current s.store)
  | error exception => exact .throwing (call.current s.store)

/-- An action under which the guards are these. -/
theorem Secured.of_kept {e : Event (securityContexts getRoleOid)}
    (kept : SecurityKept outside e.before.store (guardsOf e))
    (restored : ∀ guard unwinding, e.action = .closed guard unwinding →
      e.ending = .returned ∧ e.after.store.current = guard.entry.store.current) :
    Secured outside e where
  innermost := kept.1
  tightened pass guard member restriction found := by
    rw [kept.1]
    exact kept.2.within_inForce pass member restriction found
  restored := restored

theorem security_act (call : SecurityCall) (has : Stage.Has (SecurityKept outside) s) :
    Keeps (Stage.Has (SecurityKept outside)) s.uncaught
      ((securityContexts getRoleOid).acting call s) := by
  apply Action.keeps
  apply (call.run_ends (Stage.machine s)).mono
  · exact fun _ b same => ⟨same.trans has.1, has.2⟩
  · exact fun _ b same => ⟨same.trans has.1, has.2⟩

theorem security_open (decl : SecurityDecl) (has : Stage.Has (SecurityKept outside) s) :
    Keeps (Stage.Has (SecurityKept outside)) s.uncaught
      ((securityContexts getRoleOid).opening decl s) := by
  apply GuardClass.opening_keeps
  apply (SecurityContext.construct_ends decl (Stage.machine s)).mono
  · exact fun this b post => ⟨post.1, post.2.trans has.1, has.1, has.2⟩
  · exact fun _ b same => ⟨same.trans has.1, has.2⟩

theorem security_close {unwinding : Bool} (has : Stage.Has (SecurityKept outside) s)
    (alive : s.store.live = guard :: rest) :
    Keeps (Stage.Has (SecurityKept outside)) s.uncaught
      ((securityContexts getRoleOid).closing unwinding s) := by
  apply GuardClass.closing_keeps alive
  unfold Stage.Has SecurityKept at has
  rw [alive] at has
  obtain ⟨_, saved, _, below⟩ := has
  apply (SecurityContext.destroy_ends guard.obj (Stage.machine s)).mono
  · exact fun _ b same => ⟨same.trans saved, below⟩
  · exact fun _ b never => never.elim

theorem security_rules (outside : UserIdAndSecContext) :
    NonLocal.Rules (securityContexts getRoleOid) (Stage.Has (SecurityKept outside)) (fun _ => True)
      (Secured outside) where
  act call s has _ := ⟨.of_kept has nofun, security_act call has⟩
  call _ op _ _ _ _ _ := nomatch op
  open_ decl s has _ := ⟨.of_kept has nofun, security_open decl has⟩
  close guard rest unwinding s t has alive _ same _ := by
    have kept : SecurityKept outside s.store.world (guard :: rest) := by
      rw [← alive]
      exact has
    subst same
    refine ⟨.of_kept kept ?_, security_close has alive⟩
    intro other _ closed
    cases closed
    obtain ⟨_, saved, entered, _⟩ := kept
    exact ⟨rfl, saved.trans entered.symm⟩
  drop _ s has _ := ⟨.of_kept has nofun, Action.keeps (.pure has)⟩
  uncaught _ _ has := has

end Rules

/-- Along every run, whatever its guards are given and however it is left: the user and the flags in
force are those of the innermost guard, restrictions stay in force under guards that were given those
that they found, and each guard brings back what was in force before it. -/
theorem security_contexts_restore (p : Prog (securityContexts getRoleOid))
    (s : Machine SecurityBackend) :
    (∀ e ∈ (p.run (Prog.start s)).2.store.log, Secured s.store.current e) ∧
      Keeps (fun t => t.store.world.current = s.store.current) s.uncaught (p.run (Prog.start s)) := by
  have start : Stage.Has (SecurityKept s.store.current)
      (Prog.start s : Machine (Stage (securityContexts getRoleOid))) := ⟨rfl, trivial⟩
  have ⟨secured, keeps⟩ := p.run_keeps (security_rules s.store.current) s start fun _ _ => trivial
  refine ⟨secured, keeps.mono fun t ⟨has, ended⟩ => ?_⟩
  unfold Stage.Has SecurityKept at has
  rw [ended] at has
  exact has.1

/-- Code that does nothing but look. -/
def looking : SecurityCall := ⟨fun b => (.ok (), b), fun _ => rfl⟩

/-- A guard with the default flags inside one that restricts operations. -/
def defaultInside : Prog (securityContexts fun _ => .error .other) :=
  .scope ⟨.ofOid 10, securityRestrictedOperation⟩ (.scope { role := .ofOid 20 } (.act looking))

/-- The inner guard lifts the restriction. -/
theorem defaultInside_lifts :
    ¬ ∀ e ∈ (defaultInside.run (Prog.start ⟨0, ⟨⟨1, securityNone⟩, 1, false⟩⟩)).2.store.log,
      Tightened e := by
  intro tightened
  obtain ⟨_, earlier⟩ := List.forall_mem_cons.mp tightened
  obtain ⟨_, earlier⟩ := List.forall_mem_cons.mp earlier
  obtain ⟨looked, _⟩ := List.forall_mem_cons.mp earlier
  have lifted := looked _ List.mem_cons_self .restrictedOperation
  cases lifted rfl

end Cppgres
