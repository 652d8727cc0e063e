import Astrate.Engine.ServerData
import Astrate.GoLib.Schedule

/-!
# The cache of device states

The engine keeps the state of a device from its first message until it disconnects, "so memory scales with
connected devices". A message waits for its shard, and the shard looks the state up; on a miss it reads the store
and puts what it has read into the cache. A disconnect is handled by the broker's goroutine, which takes the state
out of the cache, and does not wait for the shards.

So the cache follows the connections as long as no message is behind the disconnect of its device
(`offline_not_cached`). A message that is loads the state again, and no later event takes it out
(`offline_cached`).
-/

set_option autoImplicit false

namespace Astrate.Engine

open Astrate.GoLib

/-- `deviceKey`: the realm and the device. -/
abbrev CacheKey := Bytes × DeviceID

/-- The shards, the cache and the lifecycle of the devices. -/
structure CacheRun where
  /-- The devices of the messages that wait for their shards. -/
  waiting : List CacheKey := []
  /-- The devices whose states a shard is reading from the store. -/
  loading : List CacheKey := []
  cache : List (CacheKey × DeviceState) := []
  /-- The devices whose last lifecycle event is a disconnect. -/
  offline : List CacheKey := []
  deriving DecidableEq

/-- What happens at the cache. -/
inductive CacheEvent where
  | submit (k : CacheKey)
  /-- A shard begins a message and looks the state of its device up. -/
  | take (k : CacheKey)
  /-- A message is dealt with before that. -/
  | skip (k : CacheKey)
  /-- The store answers. -/
  | load (k : CacheKey) (r : Except StoreError StoredDevice)
  /-- A message is abandoned at shutdown. -/
  | abandon (k : CacheKey)
  | connected (k : CacheKey)
  | disconnected (k : CacheKey)

namespace CacheRun

/-- The state that `get` makes of a row. -/
def loaded (d : StoredDevice) : DeviceState where
  introspection := d.introspection
  formatHint := d.payloadFormatHint.getD .bson

/-- `get`, behind a miss: an unknown device is not cached, and a failure of the store parks the shard. -/
def answer (s : CacheRun) (k : CacheKey) : Except StoreError StoredDevice → CacheRun
  | .ok d => { s with loading := s.loading.erase k, cache := mapSet s.cache k (loaded d) }
  | .error .notFound => { s with loading := s.loading.erase k }
  | .error _ => s

/-- The messages of one device are in one shard, which has one of them in hand at a time. The order in which a
shard takes the messages of several devices is left open. -/
def step (s : CacheRun) : CacheEvent → Option CacheRun
  | .submit k => some { s with waiting := s.waiting ++ [k] }
  | .take k =>
    if k ∈ s.waiting ∧ k ∉ s.loading then
      match s.cache.lookup k with
      | some _ => some { s with waiting := s.waiting.erase k }
      | none => some { s with waiting := s.waiting.erase k, loading := k :: s.loading }
    else none
  | .skip k => if k ∈ s.waiting ∧ k ∉ s.loading then some { s with waiting := s.waiting.erase k } else none
  | .load k r => if k ∈ s.loading then some (s.answer k r) else none
  | .abandon k => if k ∈ s.loading then some { s with loading := s.loading.erase k } else none
  | .connected k => some { s with offline := s.offline.filter (· != k) }
  -- `OnLifecycleEvent`
  | .disconnected k => some { s with offline := k :: s.offline, cache := mapDelete s.cache k }

/-- No state is loaded behind the disconnect of its device. -/
def InTime (s : CacheRun) : CacheEvent → Prop
  | .load k (.ok _) => k ∉ s.offline
  | _ => True

instance decidableInTime (s : CacheRun) : ∀ a, Decidable (s.InTime a)
  | .load k (.ok _) => inferInstanceAs (Decidable (k ∉ s.offline))
  | .load _ (.error _) => .isTrue trivial
  | .submit _ | .take _ | .skip _ | .abandon _ | .connected _ | .disconnected _ => .isTrue trivial

/-- The cache follows the connections. -/
def Follows (s : CacheRun) : Prop := ∀ k ∈ s.offline, s.cache.lookup k = none

/-! ## One step -/

variable {s s' : CacheRun} {k : CacheKey}

theorem Follows.answer {r : Except StoreError StoredDevice} (hs : s.Follows) (hok : s.InTime (.load k r)) :
    (s.answer k r).Follows := by
  cases r with
  | ok d =>
    intro k' hk'
    -- the device is online, so that it is not the one that is looked up
    have hne : k' ≠ k := fun heq => hok (heq ▸ hk')
    change (mapSet s.cache k (loaded d)).lookup k' = none
    rw [lookup_mapSet, if_neg (by simpa using hne)]
    exact hs k' hk'
  | error err => cases err <;> exact hs

theorem Follows.disconnected (hs : s.Follows) :
    Follows { s with offline := k :: s.offline, cache := mapDelete s.cache k } := by
  intro k' hk'
  rw [lookup_mapDelete]
  split_ifs with heq
  · rfl
  · apply hs k'
    exact (List.mem_cons.1 hk').resolve_left (by simpa using heq)

theorem Follows.step (hs : s.Follows) {a : CacheEvent} (hok : s.InTime a) (h : s.step a = some s') :
    s'.Follows := by
  cases a with
  | submit k =>
    cases h
    exact hs
  | take k =>
    rw [CacheRun.step] at h
    split_ifs at h
    split at h <;> cases h <;> exact hs
  | skip k =>
    rw [CacheRun.step] at h
    split_ifs at h
    cases h
    exact hs
  | load k r =>
    rw [CacheRun.step] at h
    split_ifs at h
    cases h
    exact hs.answer hok
  | abandon k =>
    rw [CacheRun.step] at h
    split_ifs at h
    cases h
    exact hs
  | connected k =>
    cases h
    intro k' hk'
    exact hs k' (List.mem_filter.1 hk').1
  | disconnected k =>
    cases h
    exact hs.disconnected

end CacheRun

/-! ## Schedules -/

/-- No state is cached for a device whose last lifecycle event is a disconnect, on the schedules on which none is
loaded behind one. -/
theorem offline_not_cached {schedule : List CacheEvent} {s : CacheRun}
    (hok : Throughout CacheRun.step CacheRun.InTime {} schedule) (h : exec CacheRun.step {} schedule = some s) :
    ∀ k ∈ s.offline, s.cache.lookup k = none := by
  have hinit : CacheRun.Follows {} := by
    intro k hk
    cases hk
  exact exec_invariant (fun _ _ _ hs hoka hstep => CacheRun.Follows.step hs hoka hstep) hinit hok h

/-- A device that publishes, and disconnects. -/
def cachedDevice : CacheKey := (utf8 "acme", Vector.replicate 16 0)

/-- Its message is processed before the disconnect. -/
theorem offline_not_cached_serial :
    ∃ s, exec CacheRun.step {} [.submit cachedDevice, .take cachedDevice, .load cachedDevice (.ok ⟨[], none⟩),
        .disconnected cachedDevice] = some s ∧
      s.waiting = [] ∧ s.loading = [] ∧ cachedDevice ∈ s.offline ∧
      ∀ k ∈ s.offline, s.cache.lookup k = none := by
  have hrun : exec CacheRun.step {} [.submit cachedDevice, .take cachedDevice,
      .load cachedDevice (.ok ⟨[], none⟩), .disconnected cachedDevice] = some ⟨[], [], [], [cachedDevice]⟩ := by
    decide +kernel
  exact ⟨_, hrun, rfl, rfl, List.mem_singleton_self _, offline_not_cached (by decide +kernel) hrun⟩

/-- The message is still waiting when the device disconnects. Once it has been processed the state is cached, and
the device is offline. -/
theorem offline_cached :
    ∃ s, exec CacheRun.step {} [.connected cachedDevice, .submit cachedDevice, .disconnected cachedDevice,
        .take cachedDevice, .load cachedDevice (.ok ⟨[], none⟩)] = some s ∧
      s.waiting = [] ∧ s.loading = [] ∧ cachedDevice ∈ s.offline ∧
      s.cache.lookup cachedDevice = some ⟨[], .bson, false, []⟩ :=
  ⟨⟨[], [], [(cachedDevice, ⟨[], .bson, false, []⟩)], [cachedDevice]⟩, by decide +kernel, rfl, rfl,
    List.mem_singleton_self _, by decide +kernel⟩

end Astrate.Engine
