import Drv.Net.Seccomp

/-!
# Filters and their policies

A part decides the calls of one number and is passed by all others
(`run_append`), so a filter decides by its list of parts.

What a permitted call does, and when a filter is installed, is not
modelled.
-/

namespace Drv.Net.Seccomp

open List

namespace Part

def syscall : Part → Syscall
  | killed s | datagramFlags s _ | messageFlags s _ | noExecMemory s | allowed s => s
  | accept4 => .accept4
  | fcntlCommands => .fcntl
  | epollCtl => .epollCtl
  | epollPwait => .epollPwait
  | ioctl => .ioctl

/-- The arguments with which a call is allowed; of flags, commands and
protections only the low half counts. -/
def permits (args : Nat → UInt64) : Part → Bool
  | killed _ => false
  | datagramFlags _ flags => (args 3).toUInt32 = flags ∧ args 4 = 0 ∧ args 5 = 0
  | messageFlags _ flags => (args 2).toUInt32 = flags
  | accept4 => (args 3).toUInt32 = 0x80800
  | fcntlCommands => (args 1).toUInt32 = 1
  | epollCtl => args 1 = 1 ∨ args 1 = 3 ∨ args 1 = 2
  | epollPwait => args 2 = 64 ∧ args 4 = 0 ∧ args 5 = 0
  | noExecMemory _ => (args 2).toUInt32 &&& 4 = 0
  | ioctl => (args 1).toUInt32 ∈ requests
  | allowed _ => true

end Part

variable {target : Target} {d : SeccompData}

theorem eq_toUInt64_iff (x : UInt64) (k : UInt32) :
    x = k.toUInt64 ↔ x.toUInt32 = k ∧ (x >>> 32).toUInt32 = 0 := by
  have hx := x.toNat_lt
  have hk := k.toNat_lt
  rw [← UInt64.toNat_inj, ← UInt32.toNat_inj, ← UInt32.toNat_inj]
  simp [UInt64.toNat_shiftRight, Nat.shiftRight_eq_div_pow]
  omega

/-- A part decides the calls of its number and is passed by the others. -/
theorem run_append (part : Part) (rest : List SockFilter) :
    run d (append target part ++ rest) 0 d.nr =
      if d.nr = part.syscall.number target then
        some (if part.permits d.args then .allow else .killProcess)
      else run d rest 0 d.nr := by
  by_cases h : d.nr = part.syscall.number target
  · rw [if_pos h]
    have hzero : ∀ i, d.args i = 0 ↔ _ := fun i => eq_toUInt64_iff (d.args i) 0
    have hbatch : d.args 2 = 64 ↔ _ := eq_toUInt64_iff (d.args 2) 64
    have hadd : d.args 1 = 1 ↔ _ := eq_toUInt64_iff (d.args 1) 1
    have hdel : d.args 1 = 2 ↔ _ := eq_toUInt64_iff (d.args 1) 2
    have hmod : d.args 1 = 3 ↔ _ := eq_toUInt64_iff (d.args 1) 3
    cases part <;> refine (if_pos h).trans ?_ <;>
      simp [run, demand, SeccompData.word, kill, allow, arg, argHigh, Part.permits, requests,
        hzero, hbatch, hadd, hdel, hmod]
    case ioctl => split_ifs <;> simp_all
    all_goals grind
  · rw [if_neg h]
    cases part <;> exact if_neg h

/-- The calls that a list of parts allows. -/
def allows (target : Target) (parts : List Part) (d : SeccompData) : Bool :=
  parts.any fun part => d.nr = part.syscall.number target ∧ part.permits d.args

theorem run_parts {parts : List Part} (h : (parts.map (·.syscall.number target)).Nodup) :
    run d (parts.flatMap (append target) ++ [kill]) 0 d.nr =
      some (if allows target parts d then .allow else .killProcess) := by
  induction parts with
  | nil => rfl
  | cons part rest ih =>
    obtain ⟨hnew, hrest⟩ := nodup_cons.mp h
    rw [flatMap_cons, append_assoc, run_append, ih hrest]
    by_cases hnr : d.nr = part.syscall.number target
    · -- no later part is about this number
      have hlater : allows target rest d = false := by
        refine any_eq_false.mpr fun other hother hallow => hnew (mem_map.mpr ⟨other, hother, ?_⟩)
        exact (of_decide_eq_true hallow).1.symm.trans hnr
      rw [if_pos hnr, allows, any_cons, ← allows, hlater]
      simp [hnr]
    · rw [if_neg hnr, allows, allows, any_cons]
      simp [hnr]

/-- Every jump lands on an instruction. -/
def lands : List SockFilter → Bool
  | [] => true
  | .jeq _ jt jf :: rest | .jset _ jt jf :: rest =>
    jt < rest.length && jf < rest.length && lands rest
  | _ :: rest => lands rest

/-- A program allows what its parts allow on its architecture, and kills the
process otherwise. -/
def Follows (target : Target) (program : List SockFilter) (parts : List Part) : Prop :=
  (∀ d a, run d program 0 a = some (if d.arch = target.auditArch ∧ allows target parts d
    then .allow else .killProcess)) ∧ lands program = true

theorem follows_of {program : List SockFilter} {parts : List Part}
    (h : (parts.map (·.syscall.number target)).Nodup) (hprogram : program = filter target parts)
    (hlands : lands program = true) : Follows target program parts := by
  refine ⟨fun d a => ?_, hlands⟩
  rw [hprogram, filter, append_assoc]
  by_cases harch : d.arch = target.auditArch
  · refine (if_pos harch).trans ((run_parts h).trans ?_)
    simp [harch]
  · refine (if_neg harch).trans ?_
    simp [harch]
    rfl

/-- The filters of the network service and of the provider are their policies. -/
theorem filters_follow_policies (target : Target) :
    Follows target (networkFilter target) networkParts ∧ ∀ ethernet linkControl resolver,
      Follows target (splice target resolver (providerFilter target ethernet linkControl))
        ((if resolver then [.accept4] else []) ++ providerParts ethernet linkControl) := by
  cases target with
  | x8664 | aarch64 =>
    refine ⟨follows_of (by decide) rfl (by decide +kernel), ?_⟩
    rintro (_ | _) (_ | _) (_ | _) <;> exact follows_of (by decide) rfl (by decide +kernel)

end Drv.Net.Seccomp
