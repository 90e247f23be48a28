import Drv.Ath11k.Keys
import Drv.Base.Hoare

/-!
# A key that is in place is not installed again

The cache holds the last key installed for a vdev and kind until its peer
goes (`Cached.run`). Installing a key whose bytes are in place is therefore
silent while its whole record is the last one of its vdev and kind
(`installed_key_not_rearmed`). With another receive counter, or after a key
of another index, it goes to the firmware again (`rearmed_by_counter`).
-/

namespace Drv.Ath11k.Core

open List Device

variable {β : Type} {B : Subsystems β} {keys : List KeyConfig}

/-- Whether an operation puts a key of the same vdev and kind in place, or
ends the life of the key's peer. -/
def Op.concerns (key : KeyConfig) : Op β → Bool
  | .installKey other => other.vdev = key.vdev ∧ other.kind = key.kind
  | .deletePeer vdev address => vdev = key.vdev ∧ address = key.peer
  | .deleteVdev vdev => vdev = key.vdev
  | .restarted _ => true
  | _ => false

/-- The same for the key's own slot. -/
def Op.settles (key : KeyConfig) (op : Op β) : Bool :=
  op.concerns key && match op with
    | .installKey other => other.peer = key.peer ∧ other.index = key.index
    | _ => true

/-- The slot of a key holds its bytes, in the life of its peer. -/
def InPlace (done : List (Op β)) (key : KeyConfig) : Prop :=
  ∃ other, done.find? (Op.settles key) = some (.installKey other) ∧ other.bytes = key.bytes

/-- The key goes to the firmware, or its replay counters are set. -/
def Operation.arms : Operation → Bool
  | .wmiInstallKey _ | .dpInstallPeerKey _ => true
  | _ => false

/-! ## The cache -/

/-- The keys that the device takes for installed. -/
def Keys (keys : List KeyConfig) (d : Device β) : Prop := d.installedKeys = keys

theorem op_keys (operation : Operation) : Keeps (Keys keys) (op B operation) :=
  fun _ hd => hd

variable (vdev : VdevId) (address : Address)

theorem createPeer_keys : Keeps (Keys keys) (createPeer B vdev address) := by
  refine .look_bind fun d => .guard (.guard (.guard ?_))
  refine .bind (op_keys _) fun _ => .bind (op_keys _) fun _ => ?_
  refine .bind (op_keys _).attempt fun setup => ?_
  cases setup with
  | ok => exact .modify fun _ hd => hd
  | error e =>
    -- the steps that undo it are tried and their answers are dropped
    refine .bind (op_keys _).attempt fun _ => .bind (op_keys _).attempt fun _ => ?_
    exact .bind (op_keys _).attempt fun _ => .fail e

theorem deletePeer_keys :
    Triple (Keys keys) (deletePeer B vdev address)
      (fun _ => Keys (keys.filter fun key => key.vdev ≠ vdev ∨ key.peer ≠ address))
      (fun _ => Keys keys) := by
  refine .look_bind fun d => .guard (fun _ h => h.1) (Triple.and_left ?_)
  refine .bind (Keeps.triple (op_keys _).attempt) fun cleanup => ?_
  refine .bind (op_keys _).triple fun _ => .bind (op_keys _).triple fun _ => ?_
  refine .ofExcept_bind (fun _ _ => .modify fun d hd => ?_) fun _ _ h => h
  exact congrArg (filter _) hd

theorem deleteVdev_keys :
    Triple (Keys keys) (deleteVdev B vdev) (fun _ => Keys (keys.filter (·.vdev ≠ vdev)))
      (fun _ => Keys keys) := by
  refine .look_bind fun d => .guard (fun _ h => h.1) (.and_left ?_)
  refine .bind (op_keys _).triple fun _ => .bind (op_keys _).triple fun _ => ?_
  exact .modify fun d hd => congrArg (filter _) hd

theorem uncertainOp_keys (key : KeyConfig) (operation : Operation) :
    Keeps (Keys keys) (uncertainOp B key operation) := by
  refine .bind (op_keys _).attempt fun answer => ?_
  cases answer with
  | ok => exact .pure ()
  | error e => exact .bind (.modify fun _ hd => hd) fun _ => .fail e

theorem installKey_keys (key : KeyConfig) :
    Triple (Keys keys) (installKey B key)
      (fun _ d => key ∈ d.installedKeys ∧ ∀ other ∈ keys,
        (Op.installKey key : Op β).concerns other = false → other ∈ d.installedKeys)
      (fun _ => Keys keys) := by
  refine .look_bind fun d => .guard (fun _ h => h.1) (.guard (fun _ h => h.1) ?_)
  refine .ite (fun hmem => .pure ?_) fun _ => .guard (fun _ h => h.1) (.and_left ?_)
  · rintro d' ⟨rfl, rfl⟩
    exact ⟨hmem, fun other hother _ => hother⟩
  · refine .bind (op_keys _).triple fun _ => .bind (uncertainOp_keys _ _).triple fun _ => ?_
    refine .bind (uncertainOp_keys _ _).triple fun _ => .modify ?_
    rintro d rfl
    refine ⟨mem_append_right _ mem_cons_self, fun other hother hne => mem_append_left _ ?_⟩
    simp only [Op.concerns, decide_eq_false_iff_not] at hne
    exact mem_filter.mpr ⟨hother, by grind⟩

/-- An operation that goes well keeps every key it does not concern, and one that fails keeps
all of them. -/
theorem Op.exec_keys (op : Op β) :
    Triple (Keys keys) (op.exec B)
      (fun _ d => ∀ key ∈ keys, op.concerns key = false → key ∈ d.installedKeys)
      (fun _ => Keys keys) := by
  cases op with
  | unrelated => exact .modify fun d hd key hkey _ => hd ▸ hkey
  | restarted => exact .modify fun d _ key _ hne => by cases hne
  | createPeer => exact .weaken_post (createPeer_keys _ _).triple fun _ d hd key hkey _ => hd ▸ hkey
  | deletePeer =>
    refine .weaken_post (deletePeer_keys _ _) fun _ d hd key hkey hne => ?_
    simp only [concerns, decide_eq_false_iff_not] at hne
    exact hd ▸ mem_filter.mpr ⟨hkey, by grind⟩
  | deleteVdev =>
    refine .weaken_post (deleteVdev_keys _) fun _ d hd key hkey hne => ?_
    simp only [concerns, decide_eq_false_iff_not] at hne
    exact hd ▸ mem_filter.mpr ⟨hkey, by grind⟩
  | installKey => exact .weaken_post (installKey_keys _) fun _ d hd => hd.2

/-! ## Whole runs -/

/-- The last key of a vdev and kind is in the cache while its peer lives. -/
def Cached (s : Session β) : Prop :=
  ∀ key, s.done.find? (Op.concerns key) = some (.installKey key) → key ∈ s.device.installedKeys

theorem Cached.run {s : Session β} (h : Cached s) (ops : List (Op β)) : Cached (s.run B ops) := by
  induction ops generalizing s with
  | nil => exact h
  | cons op rest ih =>
    apply ih
    intro key hf
    have hexec := op.exec_keys (B := B) s.device rfl
    cases hresult : (op.exec B s.device).result with
    | error e =>
      rw [hresult] at hf
      exact (hexec.2 e hresult).symm ▸ h key hf
    | ok =>
      rw [hresult, Except.isOk, Except.toBool, if_pos rfl, find?_cons] at hf
      cases hconcerns : op.concerns key with
      | true =>
        -- the operation is the one that put the key in place
        rw [hconcerns] at hf
        cases hf
        exact ((installKey_keys key s.device rfl).1 _ hresult).1
      | false =>
        rw [hconcerns] at hf
        exact hexec.1 _ hresult key (h key hf) hconcerns

/-- Installing a key whose bytes are in place is silent where its record is the last one
installed for its vdev and kind. -/
theorem installed_key_not_rearmed (B : Subsystems β) (d : Device β) (ops : List (Op β))
    (key : KeyConfig) (s : Session β) (hrun : s = Session.run B ⟨d, []⟩ ops)
    (hlast : InPlace s.done key → s.done.find? (Op.concerns key) = some (.installKey key))
    (hplace : InPlace s.done key) :
    ∀ operation ∈ (installKey B key s.device).calls, operation.arms = false := by
  have hcached : Cached s := by
    rw [hrun]
    exact .run (fun _ hf => by cases hf) ops
  have hmem := hcached key (hlast hplace)
  have hcs : (installKey B key s.device).calls = [] := by
    rw [installKey, Eff.look_bind]
    split
    · rfl
    · split <;> rfl
  rw [hcs]
  exact forall_mem_nil _

/-- A backend that takes everything. -/
def obliging : Subsystems Unit := ⟨fun _ b => (.ok (), b)⟩

/-- A pairwise key with no receive counter yet. -/
def pairwiseKey : KeyConfig where
  vdev := 0
  peer := Vector.replicate 6 2
  index := 0
  cipher := .ccmp128
  kind := .pairwise
  protection := .rxTx
  receiveSequenceCounter := 0
  bytes := replicate 16 7

/-- The session once the key is installed. -/
def keyed : Session Unit :=
  Session.run obliging ⟨⟨(), [], [], [], []⟩, []⟩
    [.unrelated () [0], .createPeer 0 pairwiseKey.peer, .installKey pairwiseKey]

theorem installed_key_not_rearmed_keyed : InPlace keyed.done pairwiseKey ∧
    ∀ operation ∈ (installKey obliging pairwiseKey keyed.device).calls, operation.arms = false := by
  have hplace : InPlace keyed.done pairwiseKey := ⟨_, rfl, rfl⟩
  exact ⟨hplace, installed_key_not_rearmed obliging _ _ pairwiseKey keyed rfl (fun _ => rfl) hplace⟩

/-- The same bytes with another receive counter go to the firmware again. -/
theorem rearmed_by_counter :
    InPlace keyed.done { pairwiseKey with receiveSequenceCounter := 1 } ∧
      ∃ operation ∈ (installKey obliging { pairwiseKey with receiveSequenceCounter := 1 }
        keyed.device).calls, operation.arms = true :=
  ⟨⟨pairwiseKey, rfl, rfl⟩, by decide⟩

end Drv.Ath11k.Core
