/-
  ClaimQueue.Proofs.Config.Overlay — what a document says of the settings, and what its gaps say.

  Writing gives every setting under a name of its own (`section_without`), and each value reads
  back as it was, spans as long as they are whole milliseconds. So reading what was written
  gives the configuration back. If members are gone from the document, on whatever level, each
  of them reads as its default: a section as the default section, a setting as the default of
  its section (`QueueConfig.overlay`), while all other settings are as they were. Under the retry
  delays the names are kinds of failures and no settings: those delays are there as a whole or
  not at all.

  Main statement: `document_overlays`.
-/

import ClaimQueue.Config.Form

namespace ClaimQueue

/-! ## Documents with gaps -/

/-- Which members of a document are gone, by the names on the way to them. -/
abbrev Removal := List String → Bool

namespace Removal

/-- What is gone below a member. -/
def below (gone : Removal) (name : String) : Removal := fun path => gone (name :: path)

/-- A setting, or its default if it is gone. -/
def keep {α : Type} (gone : Removal) (name : String) (value default : α) : α := if gone [name] then default else value

end Removal

namespace Json

mutual

/-- The document without the members that are gone. -/
def without (gone : Removal) : Json → Json
  | .members entries => .members (membersWithout gone entries)
  | j => j

def membersWithout (gone : Removal) : List (String × Json) → List (String × Json)
  | [] => []
  | (name, j) :: rest =>
    if gone [name] then membersWithout gone rest
    else (name, j.without (gone.below name)) :: membersWithout gone rest

end

mutual

theorem without_eq {gone : Removal} (kept : ∀ name path, gone (name :: path) = false) :
    (j : Json) → j.without gone = j
  | .members entries => congrArg Json.members (membersWithout_eq kept entries)
  | .null | .bool _ | .whole _ | .real _ | .text _ | .list _ => rfl

theorem membersWithout_eq {gone : Removal} (kept : ∀ name path, gone (name :: path) = false) :
    (entries : List (String × Json)) → membersWithout gone entries = entries
  | [] => rfl
  | (name, j) :: rest => by
    have below : ∀ name' path, gone.below name (name' :: path) = false := fun name' path => kept name (name' :: path)
    rw [membersWithout, if_neg (by simp [kept]), without_eq below j, membersWithout_eq kept rest]

end

theorem lookup_membersWithout (gone : Removal) (name : String) (entries : List (String × Json)) :
    Table.lookup name (membersWithout gone entries) =
      if gone [name] then none else (Table.lookup name entries).map (·.without (gone.below name)) := by
  induction entries with
  | nil => simp [membersWithout, Table.lookup]
  | cons e rest ih =>
    obtain ⟨name', j⟩ := e
    rw [membersWithout]
    by_cases same : name = name'
    · subst same
      split
      · rename_i left
        rw [ih, if_pos left]
      · simp [Table.lookup]
    · split
      · rw [ih, Table.lookup, if_neg same]
      · rw [Table.lookup, if_neg same, ih, Table.lookup, if_neg same]

end Json

/-! ## Tables -/

namespace Table

variable {α : Type}

/-- Entries put into a table one after the other, each name once, are what is there beside what was before. -/
theorem lookup_foldl_put {entries : List (String × α)} (apart : (entries.map (·.1)).Nodup) (name : String)
    (before : List (String × α)) :
    lookup name (entries.foldl (fun es e => put e.1 e.2 es) before) = (lookup name entries).or (lookup name before) := by
  induction entries generalizing before with
  | nil => rfl
  | cons e rest ih =>
    obtain ⟨alone, apart⟩ := List.nodup_cons.mp apart
    rw [List.foldl_cons, ih apart, lookup_put, lookup]
    split
    · rename_i same
      have absent : lookup name rest = none :=
        lookup_eq_none fun e' mem same' => alone (List.mem_map.mpr ⟨e', mem, same'.symm.trans same⟩)
      rw [absent, Option.none_or, Option.some_or]
    · rfl

theorem entries_ofList (l : List (String × α)) : (ofList l).entries = l.foldl (fun es e => put e.1 e.2 es) [] := by
  suffices same : ∀ t : Table α, (l.foldl (fun t e => t.insert e.1 e.2) t).entries =
      l.foldl (fun es e => put e.1 e.2 es) t.entries from same empty
  intro t
  induction l generalizing t with
  | nil => rfl
  | cons e rest ih => exact ih (t.insert e.1 e.2)

/-- A table is made again from its entries. -/
theorem ofList_entries (t : Table α) : ofList t.entries = t := by
  have apart : (t.entries.map (·.1)).Nodup := by
    refine List.pairwise_map.mpr (t.sorted.imp ?_)
    rintro ⟨a, x⟩ ⟨b, y⟩ less rfl
    exact String.lt_irrefl a less
  refine ext_get? fun name => ?_
  rw [get?, entries_ofList, lookup_foldl_put apart]
  exact Option.or_none

end Table

/-! ## Values -/

/-- The span is written as it is: whole milliseconds that fit in 64 bits. -/
def Span.Whole (d : Span) : Prop := ∃ ms, d = .ofMillis ms

theorem Span.millis_ofMillis (ms : UInt64) : (ofMillis ms).millis = ms := by
  rw [millis, ofMillis, Nat.mul_div_cancel _ (by decide)]
  exact UInt64.ofNat_toNat

namespace Form

theorem mapM_map_of_back {α β : Type} {f : α → β} {g : β → Option α} {l : List α}
    (back : ∀ a ∈ l, g (f a) = some a) : (l.map f).mapM g = some l := by
  induction l with
  | nil => rfl
  | cons a l ih =>
    obtain ⟨head, tail⟩ := List.forall_mem_cons.mp back
    rw [List.map_cons, List.mapM_cons, head, ih tail]
    rfl

theorem natBelow?_nat {limit n : Nat} (below : n < limit) : natBelow? limit (.nat n) = some n := by
  have range : (0 : Int) ≤ n ∧ (n : Int) < limit := by omega
  simp only [natBelow?, Json.nat, if_pos range]
  rfl

theorem bool?_bool (b : Bool) : bool? (.bool b) = some b := rfl

theorem u32?_nat (n : UInt32) : u32? (.nat n.toNat) = some n := by
  rw [u32?, natBelow?_nat n.toNat_lt]
  exact congrArg some UInt32.ofNat_toNat

theorem u64?_nat (n : UInt64) : u64? (.nat n.toNat) = some n := by
  rw [u64?, natBelow?_nat n.toNat_lt]
  exact congrArg some UInt64.ofNat_toNat

theorem real?_real (x : Float) : real? (.real x) = some x := rfl

theorem span?_nat {d : Span} (whole : d.Whole) : span? (.nat d.millis.toNat) = some d := by
  obtain ⟨ms, rfl⟩ := whole
  rw [span?, Span.millis_ofMillis, u64?_nat]
  rfl

theorem optionalSpan?_ofOption {o : Option Span} (whole : ∀ d ∈ o, d.Whole) :
    optionalSpan? (.ofOption (fun d => .nat d.millis.toNat) o) = some o := by
  cases o with
  | none => rfl
  | some d =>
    rw [Json.ofOption, Json.nat, optionalSpan?, ← Json.nat, span?_nat (whole d rfl)]
    · rfl
    · exact nofun

theorem delays?_form {d : Delays} (whole : ∀ step ∈ d.steps, step.Whole) : delays? (delaysForm d) = some d := by
  rw [delaysForm, delays?, mapM_map_of_back fun step mem => span?_nat (whole step mem)]
  rfl

theorem retryDelays?_form {r : RetryDelays} (whole : ∀ e ∈ r.byKind.entries, ∀ step ∈ e.2.steps, step.Whole) :
    retryDelays? (retryDelaysForm r) = some r := by
  have back : ∀ e ∈ r.byKind.entries,
      (fun e : String × Json => (delays? e.2).map (e.1, ·)) (e.1, delaysForm e.2) = some e := by
    intro e mem
    show (delays? (delaysForm e.2)).map (e.1, ·) = some e
    rw [delays?_form (whole e mem)]
    rfl
  show (((r.byKind.entries.map fun e => (e.1, delaysForm e.2)).mapM fun e => (delays? e.2).map (e.1, ·)).map
    fun es => (⟨Table.ofList es⟩ : RetryDelays)) = some r
  rw [mapM_map_of_back back, Option.map_some, Table.ofList_entries]

theorem word?_errorPolicy (p : ErrorPolicy) : word? errorPolicies (.text (errorPolicyText p)) = some p := by
  cases p <;> rfl

theorem word?_retention (r : Retention) : word? retentions (.text (retentionText r)) = some r := by
  cases r <;> rfl

theorem word?_priorityOrder (o : PriorityOrder) : word? priorityOrders (.text o.toText) = some o := by
  cases o <;> rfl

/-! ## Sections -/

/-- What a section with gaps tells of what was written in it. -/
def Tells (s : Section) (gone : Removal) (entries : List (String × Json)) : Prop :=
  ∀ name, s name = if gone [name] then none else (Table.lookup name entries).map (·.without (gone.below name))

theorem section_without (names : List String) (gone : Removal) {form : Json} {entries : List (String × Json)}
    (written : form = .object entries) (apart : (entries.map (·.1)).Nodup) :
    ∃ s, section? names (form.without gone) = some s ∧ Tells s gone entries := by
  subst written
  refine ⟨_, rfl, fun name => ?_⟩
  rw [Json.lookup_membersWithout, Table.lookup_foldl_put apart, Table.lookup, Option.or_none]

/-- A setting that is there reads as its value, one that is gone as its default. -/
theorem Tells.setting {s : Section} {gone : Removal} {entries : List (String × Json)} (tells : Tells s gone entries)
    (name : String) {j : Json} (written : Table.lookup name entries = some j) {α : Type} {read : Json → Option α}
    {value : α} (reads : read (j.without (gone.below name)) = some value) (default : α) :
    setting s name read default = some (gone.keep name value default) := by
  have told := tells name
  unfold Form.setting Removal.keep
  by_cases left : gone [name] = true
  · rw [if_pos left] at told ⊢
    rw [told]
  · rw [if_neg left, written] at told
    rw [if_neg left, told]
    exact reads

end Form

/-! ## The configuration that is left -/

def WorkerConfig.overlay (gone : Removal) (c : WorkerConfig) : WorkerConfig :=
  let d : WorkerConfig := {}
  { count := gone.keep "worker_count" c.count d.count
    collapseWhenIdle := gone.keep "single_worker_when_no_work_found" c.collapseWhenIdle d.collapseWhenIdle
    abandonWhenStopping := gone.keep "abort_worker_threads_when_stopping" c.abandonWhenStopping d.abandonWhenStopping
    stopTime := gone.keep "time_to_wait_for_workers_to_stop_ms" c.stopTime d.stopTime
    cancelTime := gone.keep "time_to_wait_for_workers_to_cancel_ms" c.cancelTime d.cancelTime }

theorem Form.worker?_without (gone : Removal) (c : WorkerConfig) (stop : c.stopTime.Whole) (cancel : c.cancelTime.Whole) :
    worker? ((workerForm c).without gone) = some (c.overlay gone) := by
  obtain ⟨s, read, tells⟩ := section_without workerNames gone (show workerForm c = .object _ from rfl) (by simp)
  have count := tells.setting "worker_count" rfl (u64?_nat c.count)
  have collapse := tells.setting "single_worker_when_no_work_found" rfl (bool?_bool c.collapseWhenIdle)
  have abandon := tells.setting "abort_worker_threads_when_stopping" rfl (bool?_bool c.abandonWhenStopping)
  have stop := tells.setting "time_to_wait_for_workers_to_stop_ms" rfl (span?_nat stop)
  have cancel := tells.setting "time_to_wait_for_workers_to_cancel_ms" rfl (span?_nat cancel)
  simp only [worker?, read, count, collapse, abandon, stop, cancel, Option.bind_eq_bind, Option.bind_some]
  rfl

def PoolConfig.overlay (gone : Removal) (c : PoolConfig) : PoolConfig :=
  let d : PoolConfig := {}
  { least := gone.keep "threads_min" c.least d.least
    most := gone.keep "threads_max" c.most d.most
    idleTimeout := gone.keep "thread_idle_timeout_ms" c.idleTimeout d.idleTimeout }

theorem Form.pool?_without (gone : Removal) (c : PoolConfig) (idle : c.idleTimeout.Whole) :
    pool? ((poolForm c).without gone) = some (c.overlay gone) := by
  obtain ⟨s, read, tells⟩ := section_without ["threads_min", "threads_max", "thread_idle_timeout_ms"] gone
    (show poolForm c = .object _ from rfl) (by simp)
  have least := tells.setting "threads_min" rfl (u64?_nat c.least)
  have most := tells.setting "threads_max" rfl (u64?_nat c.most)
  have idle := tells.setting "thread_idle_timeout_ms" rfl (span?_nat idle)
  simp only [pool?, read, least, most, idle, Option.bind_eq_bind, Option.bind_some]
  rfl

def HeartbeatConfig.overlay (gone : Removal) (c : HeartbeatConfig) : HeartbeatConfig :=
  let d : HeartbeatConfig := {}
  { enabled := gone.keep "enabled" c.enabled d.enabled
    interval := gone.keep "interval" c.interval d.interval
    time := gone.keep "time_ms" c.time d.time
    lookback := gone.keep "monitor_time_ms" c.lookback d.lookback
    pool := gone.keep "thread_pool" (c.pool.overlay (gone.below "thread_pool")) d.pool }

theorem Form.heartbeat?_without (gone : Removal) (c : HeartbeatConfig) (time : c.time.Whole)
    (lookback : ∀ d ∈ c.lookback, d.Whole) (idle : c.pool.idleTimeout.Whole) :
    heartbeat? ((heartbeatForm c).without gone) = some (c.overlay gone) := by
  obtain ⟨s, read, tells⟩ := section_without ["enabled", "interval", "time_ms", "monitor_time_ms", "thread_pool"] gone
    (show heartbeatForm c = .object _ from rfl) (by simp)
  -- the lookback is a number or nothing, and neither has members
  have bare : (Json.ofOption (fun d : Span => .nat d.millis.toNat) c.lookback).without (gone.below "monitor_time_ms") =
      .ofOption (fun d => .nat d.millis.toNat) c.lookback := by
    cases c.lookback <;> rfl
  have enabled := tells.setting "enabled" rfl (bool?_bool c.enabled)
  have interval := tells.setting "interval" rfl (u32?_nat c.interval)
  have time := tells.setting "time_ms" rfl (span?_nat time)
  have lookback := tells.setting "monitor_time_ms" rfl (bare ▸ optionalSpan?_ofOption lookback)
  have pool := tells.setting "thread_pool" rfl (pool?_without (gone.below "thread_pool") c.pool idle)
  simp only [heartbeat?, read, enabled, interval, time, lookback, pool, Option.bind_eq_bind, Option.bind_some]
  rfl

def ExpirationConfig.overlay (gone : Removal) (c : ExpirationConfig) : ExpirationConfig :=
  let d : ExpirationConfig := {}
  { enabled := gone.keep "enabled" c.enabled d.enabled
    period := gone.keep "monitor_time_ms" c.period d.period }

theorem Form.expiration?_without (gone : Removal) (c : ExpirationConfig) (period : c.period.Whole) :
    expiration? ((expirationForm c).without gone) = some (c.overlay gone) := by
  obtain ⟨s, read, tells⟩ := section_without ["enabled", "monitor_time_ms"] gone
    (show expirationForm c = .object _ from rfl) (by simp)
  have enabled := tells.setting "enabled" rfl (bool?_bool c.enabled)
  have period := tells.setting "monitor_time_ms" rfl (span?_nat period)
  simp only [expiration?, read, enabled, period, Option.bind_eq_bind, Option.bind_some]
  rfl

def DelayedConfig.overlay (gone : Removal) (c : DelayedConfig) : DelayedConfig :=
  let d : DelayedConfig := {}
  { enabled := gone.keep "enabled" c.enabled d.enabled
    period := gone.keep "monitor_time_ms" c.period d.period }

theorem Form.delayed?_without (gone : Removal) (c : DelayedConfig) (period : c.period.Whole) :
    delayed? ((delayedForm c).without gone) = some (c.overlay gone) := by
  obtain ⟨s, read, tells⟩ := section_without ["enabled", "monitor_time_ms"] gone
    (show delayedForm c = .object _ from rfl) (by simp)
  have enabled := tells.setting "enabled" rfl (bool?_bool c.enabled)
  have period := tells.setting "monitor_time_ms" rfl (span?_nat period)
  simp only [delayed?, read, enabled, period, Option.bind_eq_bind, Option.bind_some]
  rfl

def PolicyConfig.overlay (gone : Removal) (c : PolicyConfig) : PolicyConfig :=
  let d : PolicyConfig := {}
  { retryCount := gone.keep "retry_count" c.retryCount d.retryCount
    minWait := gone.keep "min_wait_ms" c.minWait d.minWait
    maxWait := gone.keep "max_wait_ms" c.maxWait d.maxWait
    chaos := gone.keep "enable_chaos" c.chaos d.chaos
    chaosRate := gone.keep "chaos_injection_rate" c.chaosRate d.chaosRate }

theorem Form.policy?_without (gone : Removal) (c : PolicyConfig) (shortest : c.minWait.Whole) (longest : c.maxWait.Whole) :
    policy? ((policyForm c).without gone) = some (c.overlay gone) := by
  obtain ⟨s, read, tells⟩ := section_without
    ["retry_count", "min_wait_ms", "max_wait_ms", "enable_chaos", "chaos_injection_rate"] gone
    (show policyForm c = .object _ from rfl) (by simp)
  have retries := tells.setting "retry_count" rfl (u32?_nat c.retryCount)
  have shortest := tells.setting "min_wait_ms" rfl (span?_nat shortest)
  have longest := tells.setting "max_wait_ms" rfl (span?_nat longest)
  have chaos := tells.setting "enable_chaos" rfl (bool?_bool c.chaos)
  have rate := tells.setting "chaos_injection_rate" rfl (real?_real c.chaosRate)
  simp only [policy?, read, retries, shortest, longest, chaos, rate, Option.bind_eq_bind, Option.bind_some]
  rfl

namespace QueueConfig

/-- The configuration with the default of its section for each setting that is gone, and the default section for each
section that is. -/
def overlay (gone : Removal) (c : QueueConfig) : QueueConfig :=
  let d : QueueConfig := {}
  { worker := gone.keep "worker" (c.worker.overlay (gone.below "worker")) d.worker
    heartbeat := gone.keep "heartbeat" (c.heartbeat.overlay (gone.below "heartbeat")) d.heartbeat
    expiration := gone.keep "message_expiration" (c.expiration.overlay (gone.below "message_expiration")) d.expiration
    delayed := gone.keep "delayed_processing" (c.delayed.overlay (gone.below "delayed_processing")) d.delayed
    emptyDelays := gone.keep "queue_delay_behavior" c.emptyDelays d.emptyDelays
    fatalDelays := gone.keep "fatal_exception_delay_behavior" c.fatalDelays d.fatalDelays
    retryDelays := gone.keep "retry_delay_behavior" c.retryDelays d.retryDelays
    errorPolicy := gone.keep "error_policy" c.errorPolicy d.errorPolicy
    retention := gone.keep "retention" c.retention d.retention
    priorityOrder := gone.keep "priority_order" c.priorityOrder d.priorityOrder
    policies := gone.keep "policies" (c.policies.overlay (gone.below "policies")) d.policies }

/-- All spans in the configuration. -/
def spans (c : QueueConfig) : List Span :=
  [c.worker.stopTime, c.worker.cancelTime, c.heartbeat.time, c.heartbeat.pool.idleTimeout, c.expiration.period,
    c.delayed.period, c.policies.minWait, c.policies.maxWait] ++ c.heartbeat.lookback.toList ++
  c.emptyDelays.steps ++ c.fatalDelays.steps ++ c.retryDelays.byKind.entries.flatMap (·.2.steps)

end QueueConfig

theorem Form.queue?_without (gone : Removal) (kinds : ∀ kind path, gone ("retry_delay_behavior" :: kind :: path) = false)
    (c : QueueConfig) (whole : ∀ d ∈ c.spans, d.Whole) :
    queue? ((queueForm c).without gone) = some (c.overlay gone) := by
  simp only [QueueConfig.spans, List.forall_mem_append, List.forall_mem_cons, List.forall_mem_flatMap,
    Option.mem_toList] at whole
  obtain ⟨⟨⟨⟨⟨stop, cancel, time, idle, expirations, promotions, shortest, longest, _⟩, lookback⟩, emptySteps⟩,
    fatalSteps⟩, retrySteps⟩ := whole
  obtain ⟨s, read, tells⟩ := section_without queueNames gone (show queueForm c = .object _ from rfl) (by simp)
  have retryForm : (retryDelaysForm c.retryDelays).without (gone.below "retry_delay_behavior") =
      retryDelaysForm c.retryDelays := Json.without_eq kinds _
  have worker := tells.setting "worker" rfl (worker?_without (gone.below "worker") c.worker stop cancel)
  have heartbeat := tells.setting "heartbeat" rfl
    (heartbeat?_without (gone.below "heartbeat") c.heartbeat time lookback idle)
  have expiration := tells.setting "message_expiration" rfl
    (expiration?_without (gone.below "message_expiration") c.expiration expirations)
  have delayed := tells.setting "delayed_processing" rfl
    (delayed?_without (gone.below "delayed_processing") c.delayed promotions)
  have empty := tells.setting "queue_delay_behavior" rfl (delays?_form emptySteps)
  have fatal := tells.setting "fatal_exception_delay_behavior" rfl (delays?_form fatalSteps)
  have retry := tells.setting "retry_delay_behavior" rfl (retryForm ▸ retryDelays?_form retrySteps)
  have errorPolicy := tells.setting "error_policy" rfl (word?_errorPolicy c.errorPolicy)
  have retention := tells.setting "retention" rfl (word?_retention c.retention)
  have priorityOrder := tells.setting "priority_order" rfl (word?_priorityOrder c.priorityOrder)
  have policies := tells.setting "policies" rfl
    (policy?_without (gone.below "policies") c.policies shortest longest)
  simp only [queue?, read, worker, heartbeat, expiration, delayed, empty, fatal, retry, errorPolicy, retention,
    priorityOrder, policies, Option.bind_eq_bind, Option.bind_some]
  rfl

/-- What was written of an accepted configuration reads back as that configuration, which is accepted again. If members are
gone from the document, the retry delays as a whole or not at all, it reads as the configuration with the default in the
place of each. -/
theorem document_overlays (c : QueueConfig) (accepted : c.check = .ok ())
    (whole : ∀ d ∈ c.spans, ∃ ms, d = .ofMillis ms) :
    (∃ c', Form.queue? (Form.queueForm c) = some c' ∧ c' = c ∧ c'.check = .ok ()) ∧
      ∀ gone : Removal, (∀ kind path, gone ("retry_delay_behavior" :: kind :: path) = false) →
        Form.queue? ((Form.queueForm c).without gone) = some (c.overlay gone) := by
  have overlays : ∀ gone : Removal, (∀ kind path, gone ("retry_delay_behavior" :: kind :: path) = false) →
      Form.queue? ((Form.queueForm c).without gone) = some (c.overlay gone) :=
    fun gone kinds => Form.queue?_without gone kinds c whole
  refine ⟨⟨c, ?_, rfl, accepted⟩, overlays⟩
  have all := overlays (fun _ => false) fun _ _ => rfl
  rw [Json.without_eq fun _ _ => rfl] at all
  exact all

/-! Settings far from the defaults, and a document with gaps on three levels. -/

namespace Tuned

def config : QueueConfig where
  worker := { count := 4, stopTime := .ofMillis 1500 }
  heartbeat := { interval := 2, time := .ofMillis 1000, lookback := some (.ofMillis 250), pool := { least := 2, most := 8 } }
  emptyDelays := .ofMillis []
  retryDelays := RetryDelays.none.insert "timeout" (.ofMillis [5, 0xffffffffffffffff])
  errorPolicy := .terminal
  retention := .archive
  policies := { retryCount := 0, chaosRate := 0.5 }

def gone : Removal :=
  [["heartbeat", "interval"], ["heartbeat", "thread_pool", "threads_min"], ["retention"], ["policies"]].contains

theorem whole : ∀ d ∈ config.spans, d = .ofMillis d.millis := by decide +kernel

end Tuned

theorem document_overlays_tuned :
    Form.queue? (Form.queueForm Tuned.config) = some Tuned.config ∧
      Form.queue? ((Form.queueForm Tuned.config).without Tuned.gone) = some { Tuned.config with
        heartbeat := { Tuned.config.heartbeat with interval := 4, pool := { least := 1, most := 8 } }
        retention := .purge
        policies := {} } := by
  obtain ⟨⟨_, read, rfl, _⟩, overlays⟩ :=
    document_overlays Tuned.config rfl fun d mem => ⟨d.millis, Tuned.whole d mem⟩
  exact ⟨read, overlays Tuned.gone fun _ _ => rfl⟩

end ClaimQueue
