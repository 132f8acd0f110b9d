import Mathlib.Data.NNRat.Floor
import CustomAi.Lib.Dict

/-!
# The rate limiter

Calls are counted in buckets of `bucket_size` seconds, in memory or in Redis.
-/

namespace CustomAi.OpenWebUI

open Dict List Function Option

structure RateLimiter where
  limit : ℕ
  window : ℕ
  bucket_size : ℕ
  bucket_size_pos : 0 < bucket_size

/-- A call of `is_limited`, at the time that `time.time()` and the Redis server tell. -/
structure LimitCall where
  time : ℚ≥0
  key : String

namespace RateLimiter

variable (self : RateLimiter)

def num_buckets : ℕ := self.window / self.bucket_size

def current_bucket (now : ℚ≥0) : ℤ := (⌊now⌋₊ / self.bucket_size : ℕ)

/-- The buckets of each key in `_memory_store`. -/
abbrev MemoryStore := Dict String (Dict ℤ ℕ)

def is_limited_memory (memory : MemoryStore) (call : LimitCall) : Bool × MemoryStore :=
  let now_bucket := self.current_bucket call.time
  let store := (memory.get? call.key).getD empty
  let store := store.set now_bucket ((store.get? now_bucket).getD 0 + 1)
  let min_bucket := now_bucket - self.num_buckets
  let store := store.filter fun b _ => decide (¬ b < min_bucket)
  (decide (self.limit < store.sum fun _ count => count), memory.set call.key store)

/-- The counters of Redis with the times they expire at. -/
abbrev RedisStore := Dict (String × ℤ) (ℕ × Option ℚ≥0)

/-- What Redis has under a key at a time. -/
def live (redis : RedisStore) (now : ℚ≥0) (key : String × ℤ) : Option (ℕ × Option ℚ≥0) :=
  (redis.get? key).filter fun entry => entry.2.all fun expiry => decide (now < expiry)

def incr (redis : RedisStore) (now : ℚ≥0) (key : String × ℤ) : ℕ × RedisStore :=
  let entry := (live redis now key).getD (0, none)
  (entry.1 + 1, redis.set key (entry.1 + 1, entry.2))

def expire (redis : RedisStore) (now : ℚ≥0) (key : String × ℤ) (seconds : ℕ) : RedisStore :=
  match live redis now key with
  | none => redis
  | some entry => redis.set key (entry.1, some (now + (seconds : ℚ≥0)))

/-- The attempt is counted, and a new counter expires on its own. -/
def count_attempt (redis : RedisStore) (now : ℚ≥0) (bucket_key : String × ℤ) : RedisStore :=
  let (attempts, redis) := incr redis now bucket_key
  if attempts = 1 then expire redis now bucket_key (self.window + self.bucket_size) else redis

def is_limited_redis (lower : String → String) (redis : RedisStore) (call : LimitCall) :
    Bool × RedisStore :=
  let now_bucket := self.current_bucket call.time
  let redis := self.count_attempt redis call.time (lower call.key, now_bucket)
  let counts := (List.range (self.num_buckets + 1)).map fun i : ℕ =>
    (live redis call.time (lower call.key, now_bucket - i)).map Prod.fst
  (decide (self.limit < (counts.map fun count => count.getD 0).sum), redis)

/-- The answers to a sequence of calls. -/
def answers {S : Type} (is_limited : S → LimitCall → Bool × S) : S → List LimitCall → List Bool
  | _, [] => []
  | s, call :: rest => (is_limited s call).1 :: answers is_limited (is_limited s call).2 rest

/-- At most `limit` calls of a key pass within any `window` seconds. -/
def KeepsBound (calls : List LimitCall) (limited : List Bool) : Prop :=
  ∀ (key : String) (start : ℚ≥0), (calls.zip limited).countP (fun e => e.1.key = key ∧
    start ≤ e.1.time ∧ e.1.time ≤ start + self.window ∧ e.2 = false) ≤ self.limit

/-- A call passes if there are at most `limit` calls of its key in the last
`window + bucket_size` seconds. -/
def PassesFew (calls : List LimitCall) (limited : List Bool) : Prop :=
  ∀ before call after, calls = before ++ call :: after → (before ++ [call]).countP (fun c => c.key = call.key ∧
      call.time < c.time + ((self.window + self.bucket_size : ℕ) : ℚ≥0)) ≤ self.limit →
    limited[before.length]? = some false

/-- What the limiter should do for calls with keys that are in lower case. -/
def Limits : Prop :=
  ∀ (lower : String → String) (calls : List LimitCall),
    calls.Pairwise (fun c d => c.time ≤ d.time) → (∀ call ∈ calls, lower call.key = call.key) →
    let limited := answers self.is_limited_memory empty calls
    self.KeepsBound calls limited ∧ self.PassesFew calls limited ∧
      limited = answers (self.is_limited_redis lower) empty calls

/-- The calls of the key in the buckets that are counted for a call after a history. -/
def total (history : List LimitCall) (call : LimitCall) : ℕ :=
  (history ++ [call]).countP fun c => c.key = call.key ∧
    self.current_bucket call.time - self.num_buckets ≤ self.current_bucket c.time

def limitedAfter (history : List LimitCall) : List LimitCall → List Bool
  | [] => []
  | call :: rest => decide (self.limit < self.total history call) :: limitedAfter (history ++ [call]) rest

variable {self} {lower : String → String} {history calls : List LimitCall} {call : LimitCall}

variable {s t : ℚ≥0} {redis : RedisStore}

lemma current_bucket_mono (h : s ≤ t) : self.current_bucket s ≤ self.current_bucket t := by
  unfold current_bucket
  exact_mod_cast Nat.div_le_div_right (Nat.floor_mono h)

/-- Calls at most a window apart are counted together, if the buckets divide the window. -/
lemma current_bucket_le (hdvd : self.bucket_size ∣ self.window) (h : t ≤ s + self.window) :
    self.current_bucket t ≤ self.current_bucket s + self.num_buckets := by
  unfold current_bucket num_buckets
  have hfloor : ⌊t⌋₊ ≤ ⌊s⌋₊ + self.window / self.bucket_size * self.bucket_size := by
    rw [Nat.div_mul_cancel hdvd, ← Nat.floor_add_natCast zero_le]
    exact Nat.floor_mono h
  have hdiv := Nat.div_le_div_right (c := self.bucket_size) hfloor
  rw [Nat.add_mul_div_right _ _ self.bucket_size_pos] at hdiv
  exact_mod_cast hdiv

/-- Calls in buckets that are counted together are less than `window + bucket_size` apart. -/
lemma lt_of_current_bucket_le (h : self.current_bucket t ≤ self.current_bucket s + self.num_buckets) :
    t < s + (self.window + self.bucket_size : ℕ) := by
  by_contra hlt
  have hfloor : ⌊s⌋₊ + (self.num_buckets + 1) * self.bucket_size ≤ ⌊t⌋₊ := by
    have hle := Nat.floor_mono (not_lt.mp hlt)
    rw [Nat.floor_add_natCast zero_le] at hle
    have hwindow := Nat.div_mul_le_self self.window self.bucket_size
    unfold num_buckets
    rw [add_mul]
    omega
  have hdiv := Nat.div_le_div_right (c := self.bucket_size) hfloor
  rw [Nat.add_mul_div_right _ _ self.bucket_size_pos] at hdiv
  unfold current_bucket at h
  omega

/-- The memory store counts the calls of every bucket that can still be asked for. -/
def MemoryTracks (self : RateLimiter) (memory : MemoryStore) (history : List LimitCall) : Prop :=
  ∀ key first now, (∀ c ∈ history, c.time ≤ now) → self.current_bucket now - self.num_buckets ≤ first →
    ((memory.get? key).getD empty).sum (fun b count => if b < first then 0 else count) =
      history.countP fun c => c.key = key ∧ first ≤ self.current_bucket c.time

lemma MemoryTracks.step {memory : MemoryStore} (h : self.MemoryTracks memory history)
    (hlast : ∀ c ∈ history, c.time ≤ call.time) :
    (self.is_limited_memory memory call).1 = decide (self.limit < self.total history call) ∧
      self.MemoryTracks (self.is_limited_memory memory call).2 (history ++ [call]) := by
  set B := self.current_bucket call.time with hB
  set store := (memory.get? call.key).getD empty
  set counted := store.set B ((store.get? B).getD 0 + 1) with hcounted
  have hsum : ∀ first, B - self.num_buckets ≤ first →
      counted.sum (fun b count => if b < first then 0 else count) = (history ++ [call]).countP fun c =>
          c.key = call.key ∧ first ≤ self.current_bucket c.time := by
    intro first hfirst
    have hset := store.sum_set (fun b count => if b < first then 0 else count) B
      ((store.get? B).getD 0 + 1)
    have helim : (store.get? B).elim 0 (fun count => if B < first then 0 else count) =
        if B < first then 0 else (store.get? B).getD 0 := by
      cases store.get? B <;> simp
    rw [← hcounted, h call.key first call.time hlast hfirst, helim] at hset
    rw [countP_append, countP_singleton]
    simp only [decide_eq_true_eq, true_and, ← hB]
    split_ifs at hset ⊢ <;> omega
  have hkept : ∀ f g : ℤ → ℕ → ℕ, (∀ b count, (if b < B - self.num_buckets then 0 else f b count) = g b count) →
      (counted.filter fun b _ => decide (¬ b < B - self.num_buckets)).sum f = counted.sum g := by
    intro f g hfg
    refine sum_congr_get? fun b => ?_
    rw [get?_filter]
    cases counted.get? b with
    | none => rfl
    | some count =>
      rw [elim_some, ← hfg, filter_some]
      by_cases hb : b < B - self.num_buckets <;> simp [hb]
  constructor
  · rw [total, ← hsum _ le_rfl, ← hkept _ _ fun _ _ => rfl]
    rfl
  · intro key first now hnow hfirst
    have hle : self.current_bucket call.time ≤ self.current_bucket now := current_bucket_mono (hnow call (by simp))
    rw [is_limited_memory, get?_set]
    by_cases hkey : key = call.key
    · rw [if_pos hkey, hkey, ← hsum first (by omega)]
      refine hkept _ _ fun b count => ?_
      split_ifs <;> omega
    · rw [if_neg hkey, h key first now (fun c hc => hnow c (by simp [hc])) hfirst, countP_append]
      simp [Ne.symm hkey]

/-- The calls of a key in a bucket. -/
def callsIn (self : RateLimiter) (history : List LimitCall) (key : String) (bucket : ℤ) : ℕ :=
  history.countP fun c => c.key = key ∧ self.current_bucket c.time = bucket

lemma callsIn_append (key : String) (bucket : ℤ) :
    self.callsIn (history ++ [call]) key bucket = self.callsIn history key bucket +
      if call.key = key ∧ self.current_bucket call.time = bucket then 1 else 0 := by
  unfold callsIn
  rw [countP_append, countP_singleton]
  simp only [decide_eq_true_eq]

/-- The calls in the last buckets. -/
lemma sum_callsIn (self : RateLimiter) (key : String) (bucket : ℤ) (history : List LimitCall)
    (hlast : ∀ c ∈ history, self.current_bucket c.time ≤ bucket) (n : ℕ) :
    ((List.range n).map fun i : ℕ => self.callsIn history key (bucket - i)).sum =
      history.countP fun c => c.key = key ∧ bucket - n < self.current_bucket c.time := by
  induction n with
  | zero =>
    rw [range_zero, map_nil, sum_nil, eq_comm, countP_eq_zero]
    intro c hc
    have hle := hlast c hc
    rw [decide_eq_true_eq]
    omega
  | succ n ih =>
    rw [range_succ, map_append, sum_append, ih, map_singleton, sum_singleton, callsIn]
    clear ih
    induction history with
    | nil => rfl
    | cons c rest ih =>
      specialize ih fun c hc => hlast c (by simp [hc])
      simp only [countP_cons, decide_eq_true_eq]
      by_cases hkey : c.key = key
      · simp only [hkey, true_and]
        split_ifs <;> omega
      · simp only [hkey, false_and, if_false]
        omega

/-- The Redis counters are those of all calls, and outlive the calls that ask for them. -/
def RedisTracks (self : RateLimiter) (redis : RedisStore) (history : List LimitCall) : Prop :=
  ∀ key bucket, (redis.get? (key, bucket)).elim (self.callsIn history key bucket = 0) fun entry =>
    0 < entry.1 ∧ entry.1 = self.callsIn history key bucket ∧ ∃ created, self.current_bucket created = bucket ∧
      entry.2 = some (created + ((self.window + self.bucket_size : ℕ) : ℚ≥0))

section

variable (h : self.RedisTracks redis history)
include h

lemma RedisTracks.live_eq {key : String}
    {bucket : ℤ} {now : ℚ≥0} (hnow : self.current_bucket now ≤ bucket + self.num_buckets) :
    live redis now (key, bucket) = redis.get? (key, bucket) := by
  have hentry := h key bucket
  unfold live
  cases hget : redis.get? (key, bucket) with
  | none => rfl
  | some entry =>
    rw [hget] at hentry
    obtain ⟨-, -, created, hcreated, hexpiry⟩ := hentry
    have hlt : now < created + (self.window + self.bucket_size : ℕ) := lt_of_current_bucket_le (by rwa [hcreated])
    rw [filter_some, hexpiry, all_some, if_pos (decide_eq_true hlt)]

/-- The first call of a bucket creates its counter and lets it expire. -/
lemma RedisTracks.count_attempt (call : LimitCall) : self.RedisTracks (self.count_attempt redis call.time
      (call.key, self.current_bucket call.time)) (history ++ [call]) := by
  set B := self.current_bucket call.time with hB
  obtain ⟨created, hcreated, hafter⟩ : ∃ created, self.current_bucket created = B ∧
      ∀ k, (self.count_attempt redis call.time (call.key, B)).get? k =
        if k = (call.key, B) then some (self.callsIn history call.key B + 1,
          some (created + ((self.window + self.bucket_size : ℕ) : ℚ≥0))) else redis.get? k := by
    have hentry := h call.key B
    unfold RateLimiter.count_attempt incr
    rw [h.live_eq (by omega)]
    cases hget : redis.get? (call.key, B) with
    | none =>
      rw [hget, elim_none] at hentry
      refine ⟨call.time, rfl, fun k => ?_⟩
      simp only [getD_none, expire, live, get?_set_self, filter_some, all_none, if_true, hentry]
      rw [get?_set, get?_set]
      split_ifs <;> rfl
    | some entry =>
      rw [hget] at hentry
      obtain ⟨hpos, hcount, created, hcreated, hexpiry⟩ := hentry
      refine ⟨created, hcreated, fun k => ?_⟩
      dsimp only [getD_some]
      rw [if_neg (by omega), get?_set, hcount, hexpiry]
  intro key bucket
  rw [hafter, callsIn_append]
  by_cases hk : (key, bucket) = (call.key, B)
  · rw [if_pos hk, (Prod.mk.inj hk).1, (Prod.mk.inj hk).2, if_pos ⟨rfl, hB.symm⟩]
    exact ⟨Nat.succ_pos _, rfl, created, hcreated, rfl⟩
  · rw [if_neg hk, if_neg fun hc => hk (Prod.ext hc.1.symm hc.2.symm)]
    exact h key bucket

lemma RedisTracks.step  (hlast : ∀ c ∈ history, c.time ≤ call.time) (hlower : lower call.key = call.key) :
    (self.is_limited_redis lower redis call).1 = decide (self.limit < self.total history call) ∧
      self.RedisTracks (self.is_limited_redis lower redis call).2 (history ++ [call]) := by
  have htracks := h.count_attempt call
  unfold is_limited_redis
  rw [hlower]
  refine ⟨?_, htracks⟩
  have hsum := sum_callsIn self call.key (self.current_bucket call.time) (history ++ [call])
    (fun c hc => by
      rcases mem_append.mp hc with hc | hc
      · exact current_bucket_mono (hlast c hc)
      · rw [mem_singleton.mp hc]) (self.num_buckets + 1)
  push_cast at hsum
  rw [total]
  simp only [← Int.sub_one_lt_iff, sub_sub]
  rw [← hsum, List.map_map]
  congr 3
  refine List.map_congr_left fun i hi => ?_
  rw [List.mem_range] at hi
  rw [comp_apply, htracks.live_eq (by omega)]
  have hentry := htracks call.key (self.current_bucket call.time - i)
  cases hget : get? _ (call.key, self.current_bucket call.time - (i : ℤ)) with
  | none =>
    rw [hget] at hentry
    exact hentry.symm
  | some entry =>
    rw [hget] at hentry
    exact hentry.2.1

end

lemma answers_eq {S : Type} {is_limited : S → LimitCall → Bool × S} {Tracks : S → List LimitCall → Prop}
    (hstep : ∀ {s history call}, Tracks s history → (∀ c ∈ history, c.time ≤ call.time) →
      lower call.key = call.key → (is_limited s call).1 = decide (self.limit < self.total history call) ∧
        Tracks (is_limited s call).2 (history ++ [call])) {s : S} (h : Tracks s history)
    (hsorted : (history ++ calls).Pairwise (fun c d => c.time ≤ d.time))
    (hlower : ∀ call ∈ calls, lower call.key = call.key) :
    answers is_limited s calls = self.limitedAfter history calls := by
  induction calls generalizing s history with
  | nil => rfl
  | cons call rest ih =>
    have hlast : ∀ c ∈ history, c.time ≤ call.time := fun c hc =>
      (pairwise_append.mp hsorted).2.2 c hc call (by simp)
    obtain ⟨hanswer, htracks⟩ := hstep h hlast (hlower call (by simp))
    rw [answers, limitedAfter, hanswer, ih htracks (by rwa [append_assoc]) fun c hc =>
      hlower c (by simp [hc])]

lemma limitedAfter_append (history calls : List LimitCall) (call : LimitCall) :
    self.limitedAfter history (calls ++ [call]) = self.limitedAfter history calls ++
      [decide (self.limit < self.total (history ++ calls) call)] := by
  induction calls generalizing history with
  | nil => simp [limitedAfter]
  | cons c rest ih => simp [limitedAfter, ih]

lemma length_limitedAfter (self : RateLimiter) (history calls : List LimitCall) :
    (self.limitedAfter history calls).length = calls.length := by
  induction calls generalizing history with
  | nil => rfl
  | cons c rest ih => simp [limitedAfter, ih]

lemma getElem?_limitedAfter (history before after : List LimitCall) (call : LimitCall) :
    (self.limitedAfter history (before ++ call :: after))[before.length]? =
      some (decide (self.limit < self.total (history ++ before) call)) := by
  induction before generalizing history with
  | nil => simp [limitedAfter]
  | cons c rest ih => simp [limitedAfter, ih]

lemma passesFew_limitedAfter (calls : List LimitCall) : self.PassesFew calls (self.limitedAfter [] calls) := by
  rintro before call after rfl hfew
  rw [getElem?_limitedAfter, some.injEq, decide_eq_false_iff_not, not_lt]
  refine (countP_mono_left fun c _ hc => ?_).trans hfew
  rw [decide_eq_true_eq] at hc ⊢
  exact ⟨hc.1, lt_of_current_bucket_le (by omega)⟩

lemma keepsBound_limitedAfter (h : self.bucket_size ∣ self.window ∨ self.limit = 0)
    (calls : List LimitCall) : self.KeepsBound calls (self.limitedAfter [] calls) := by
  intro key start
  induction calls using reverseRecOn with
  | nil => exact Nat.zero_le _
  | append_singleton l call ih =>
    rw [limitedAfter_append, nil_append, zip_append (length_limitedAfter self [] l).symm, countP_append]
    by_cases hlast : call.key = key ∧ start ≤ call.time ∧ call.time ≤ start + self.window ∧
        decide (self.limit < self.total l call) = false
    · obtain ⟨hkey, -, hend, hanswer⟩ := hlast
      have htotal := not_lt.mp (of_decide_eq_false hanswer)
      have hcall : (decide (call.key = call.key ∧ self.current_bucket call.time -
          self.num_buckets ≤ self.current_bucket call.time)) = true := by
        rw [decide_eq_true_eq]
        exact ⟨rfl, by omega⟩
      rw [total, countP_append, countP_singleton, if_pos hcall] at htotal
      have hdvd := h.resolve_right (by omega)
      refine le_trans (Nat.add_le_add ?_ countP_le_length) htotal
      rw [← map_fst_zip (length_limitedAfter self [] l).ge, countP_map,
        map_fst_zip (length_limitedAfter self [] l).ge]
      refine countP_mono_left fun e he hcounted => ?_
      rw [decide_eq_true_eq] at hcounted
      obtain ⟨hekey, hestart, -⟩ := hcounted
      have hwithin : call.time ≤ e.1.time + self.window := hend.trans (add_le_add_left hestart _)
      have hbucket := current_bucket_le hdvd hwithin
      rw [comp_apply, decide_eq_true_eq]
      exact ⟨hekey.trans hkey.symm, by omega⟩
    · have hnone : ([call].zip [decide (self.limit < self.total l call)]).countP (fun e =>
          e.1.key = key ∧ start ≤ e.1.time ∧ e.1.time ≤ start + self.window ∧ e.2 = false) = 0 := by
        simpa using hlast
      rw [hnone]
      exact ih

lemma limitedAfter_of_few (hfew : history.length + calls.length ≤ self.limit) :
    self.limitedAfter history calls = replicate calls.length false := by
  induction calls generalizing history with
  | nil => rfl
  | cons call rest ih =>
    rw [length_cons] at hfew
    have htotal : self.total history call ≤ self.limit := by
      refine countP_le_length.trans ?_
      rw [length_append, length_singleton]
      omega
    rw [limitedAfter, ih (by rw [length_append, length_singleton]; omega),
      decide_eq_false (not_lt.mpr htotal), length_cons, replicate_succ]

/-- `limit` calls at the end of a bucket, and one in the first bucket that does not count them. -/
def burst (self : RateLimiter) : List LimitCall :=
  replicate self.limit ⟨(self.bucket_size - 1 : ℕ), "k"⟩ ++
    [⟨((self.num_buckets + 1) * self.bucket_size : ℕ), "k"⟩]

lemma burst_passes (h : 0 < self.limit) : self.limitedAfter [] self.burst = replicate (self.limit + 1) false := by
  have hpos := self.bucket_size_pos
  unfold burst
  rw [limitedAfter_append, limitedAfter_of_few (by simp), length_replicate, replicate_succ']
  congr 2
  rw [decide_eq_false_iff_not, not_lt, total, countP_append, countP_eq_zero.mpr]
  · exact (Nat.add_le_add_left countP_le_length 0).trans (by simpa using Nat.succ_le_of_lt h)
  · intro c hc
    rw [eq_of_mem_replicate hc, decide_eq_true_eq]
    unfold current_bucket
    rw [Nat.floor_natCast, Nat.floor_natCast, Nat.mul_div_cancel _ hpos, Nat.div_eq_of_lt (by omega)]
    omega

lemma burst_sorted (self : RateLimiter) : self.burst.Pairwise (fun c d => c.time ≤ d.time) := by
  unfold burst
  rw [pairwise_append]
  refine ⟨pairwise_replicate.mpr (.inr le_rfl), pairwise_singleton _ _, ?_⟩
  intro c hc d hd
  rw [eq_of_mem_replicate hc, mem_singleton.mp hd]
  have hle : self.bucket_size - 1 ≤ (self.num_buckets + 1) * self.bucket_size := by
    rw [add_mul]
    omega
  dsimp only
  exact_mod_cast hle

lemma burst_within (h : ¬ self.bucket_size ∣ self.window) :
    ∀ call ∈ self.burst, call.key = "k" ∧ ((self.bucket_size - 1 : ℕ) : ℚ≥0) ≤ call.time ∧
      call.time ≤ ((self.bucket_size - 1 : ℕ) : ℚ≥0) + self.window := by
  have hdiv : self.num_buckets * self.bucket_size + self.window % self.bucket_size =
      self.window := Nat.div_add_mod' _ _
  have hspan : self.bucket_size - 1 ≤ (self.num_buckets + 1) * self.bucket_size ∧
      (self.num_buckets + 1) * self.bucket_size ≤ self.bucket_size - 1 + self.window := by
    rw [add_mul]
    omega
  intro call hcall
  rcases mem_append.mp hcall with hcall | hcall
  · rw [eq_of_mem_replicate hcall]
    exact ⟨rfl, le_rfl, le_self_add⟩
  · rw [mem_singleton.mp hcall]
    dsimp only
    exact ⟨rfl, by exact_mod_cast hspan.1, by exact_mod_cast hspan.2⟩

lemma answers_memory (h : calls.Pairwise fun c d => c.time ≤ d.time) :
    answers self.is_limited_memory empty calls = self.limitedAfter [] calls := by
  have hmemory : self.MemoryTracks empty [] := fun _ _ _ _ _ => rfl
  exact answers_eq (fun h hlast _ => h.step hlast) hmemory h
    fun call _ => (rfl : id call.key = call.key)

lemma not_limits (h : ¬ self.bucket_size ∣ self.window) (hlimit : 0 < self.limit) : ¬ self.Limits := by
  intro hlimits
  obtain ⟨hbound, -⟩ := hlimits id self.burst self.burst_sorted fun _ _ => rfl
  have hb := hbound "k" (self.bucket_size - 1 : ℕ)
  rw [answers_memory self.burst_sorted, burst_passes hlimit, countP_eq_length.mpr] at hb
  · simp [burst] at hb
  · intro e he
    obtain ⟨hcall, hanswer⟩ := of_mem_zip he
    obtain ⟨hkey, hstart, hend⟩ := burst_within h e.1 hcall
    rw [decide_eq_true_eq]
    exact ⟨hkey, hstart, hend, eq_of_mem_replicate hanswer⟩

/-- The limiter keeps its bound, with and without Redis, exactly if the buckets divide the window or
every call is rejected. -/
theorem limits_iff (self : RateLimiter) : self.Limits ↔ self.bucket_size ∣ self.window ∨ self.limit = 0 := by
  constructor
  · intro hlimits
    by_contra hno
    rw [not_or] at hno
    exact not_limits hno.1 (by omega) hlimits
  · intro h lower calls hsorted hkeys
    have hredis : self.RedisTracks empty [] := fun _ _ => rfl
    have hsecond := answers_eq (fun h hlast hkey => RedisTracks.step h hlast hkey) hredis hsorted hkeys
    rw [answers_memory hsorted, hsecond]
    exact ⟨keepsBound_limitedAfter h calls, passesFew_limitedAfter calls, rfl⟩

/-- A window of one bucket and a half. -/
theorem burst_exceeds : ¬ (RateLimiter.mk 1 90 60 (by decide)).Limits :=
  not_limits (by decide) (by decide)

end RateLimiter

end CustomAi.OpenWebUI
