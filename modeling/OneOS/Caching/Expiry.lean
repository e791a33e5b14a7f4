import OneOS.Caching.CacheEntries

/-!
# Times to live

Whether an entry is over is decided by its time to live and the time since it was created, and by a
flag that a get or `dcache_expire_old_entries` sets once it was found to be over.

A get and `dcache_cleanup_expired` count that time differently, the latter in 32 bits only. The age
in 32 bits is never more than the whole one, so the cleanup removes no entry that a get would still
answer with: `cleanupExpired_invisible`.

An accepted put should give its value a whole time to live (`LivesAsPut`). A put that overwrites an
entry sets the time to live and clears the flag, but leaves the time of creation, so that the time
that has passed since the first write counts. `livesAsPut_of_timely`: values live as they should as
long as no accepted put with a time to live overwrites an entry that was created at another time,
none is longer than the buffer of the entry that it overwrites, and none is of a key that does not
fit (`TimelyPut`).

Both results are about the program (`cachesStep`), which ends where a put writes behind a buffer.
-/

set_option autoImplicit false
set_option relaxedAutoImplicit false

namespace OneOS.Caching

open Foundation

/-- What `dcache_get` returns. -/
def dcacheGet (caches : List DistributedCache) (cacheId : UInt32) (key : CString) (now : UInt64) :
    Option (List UInt8) :=
  (rowOf caches cacheId).bind fun cache ↦ (cache.get key now).2

/-! ### The clock -/

/-- The time, which is signed. -/
def clock (now : UInt64) : ℤ :=
  now.toBitVec.toInt

/-- The times of calls do not go back. -/
def Forward (times : List UInt64) : Prop :=
  times.Pairwise fun earlier later ↦ clock earlier ≤ clock later

/-- Between two times that do not go back, the difference is the time that passes. -/
theorem toNat_sub_of_clock_le {earlier later : UInt64} (hle : clock earlier ≤ clock later) :
    ((later - earlier).toNat : ℤ) = clock later - clock earlier := by
  rw [clock, clock, BitVec.toInt_eq_toNat_cond, BitVec.toInt_eq_toNat_cond] at hle ⊢
  rw [UInt64.toNat_sub]
  have hearlier := earlier.toNat_lt
  have hlater := later.toNat_lt
  simp only [UInt64.toNat_toBitVec] at hle ⊢
  split_ifs at hle ⊢ <;> omega

variable {cache : DistributedCache} {entry : CacheEntry} {key : CString} {now : UInt64}

/-- The time to live of an entry is over when more time than that has passed since its creation. -/
theorem outlived_iff (hle : clock entry.creationTime ≤ clock now) :
    entry.outlived now = true ↔
      0 < entry.ttlSeconds ∧ clock entry.creationTime + entry.ttlSeconds.toNat < clock now := by
  rw [CacheEntry.outlived, Bool.and_eq_true, decide_eq_true_iff, decide_eq_true_iff,
    UInt64.lt_iff_toNat_lt, UInt32.toNat_toUInt64]
  have hpassed := toNat_sub_of_clock_le hle
  exact and_congr_right fun _ ↦ by omega

/-! ### Cleaning up -/

/-- What is over in 32 bits is over: a get answers with nothing for an entry that the cleanup
removes. -/
theorem shown_of_isOver (hover : entry.isOver now = true) : entry.shown now = none := by
  have hgone : (entry.isExpired || entry.outlived now) = true := by
    rw [CacheEntry.isOver, Bool.or_eq_true, Bool.and_eq_true, decide_eq_true_iff,
      decide_eq_true_iff] at hover
    rw [Bool.or_eq_true, CacheEntry.outlived, Bool.and_eq_true, decide_eq_true_iff,
      decide_eq_true_iff]
    refine hover.imp_right fun ⟨httl, hage⟩ ↦ ⟨httl, ?_⟩
    rw [UInt32.lt_iff_toNat_lt, UInt64.toNat_toUInt32] at hage
    rw [UInt64.lt_iff_toNat_lt, UInt32.toNat_toUInt64]
    exact hage.trans_le (Nat.mod_le _ _)
  rw [CacheEntry.shown, if_pos hgone]

/-- Assumes: distinct keys in every partition. A get answers after a cleanup at the same time as
before it. -/
theorem get_cleanupExpired (hdistinct : cache.Distinct) :
    ((cache.cleanupExpired now).1.get key now).2 = (cache.get key now).2 := by
  rw [get_snd, get_snd, entryOf_cleanupExpired hdistinct]
  cases cache.entryOf key with
  | none => rfl
  | some entry =>
    by_cases hover : entry.isOver now = true
    · rw [Option.filter_some_neg (by simp [hover]), Option.bind_none, Option.bind_some,
        shown_of_isOver hover]
    · rw [Option.filter_some_pos (by simp [hover])]

/-- In every state that a run reaches whose accepted puts have keys shorter than `MAX_KEY_SIZE`, at
every time and for every key of every cache, `dcache_cleanup_expired` goes through, and `dcache_get`
returns the same after it at that time as without it. -/
theorem cleanupExpired_invisible {caches : List DistributedCache} (calls : List CachesCall)
    (hshort : EveryStep cachesStep (fun running call ↦ ∀ caches ∈ running,
      CachesShortKey caches call) (some []) calls)
    (hreached : runFrom cachesStep (some []) calls = some caches) (cacheId other : UInt32)
    (key : CString) (now : UInt64) :
    (cachesStep (some caches) (.onCache cacheId (.cleanupExpired now))).map
        (fun after ↦ dcacheGet after other key now) = some (dcacheGet caches other key now) := by
  have hdistinct := distinct_runFrom hshort caches hreached
  have hgoes : (CachesCall.onCache cacheId (.cleanupExpired now)).overruns caches = false :=
    overruns_eq_false_iff.mpr fun _ _ ↦ trivial
  rw [cachesStep, endingStep_some, hgoes, if_neg Bool.false_ne_true, Option.map_some]
  refine congrArg some ?_
  rw [dcacheGet, dcacheGet, cacheStep]
  by_cases hother : other = cacheId
  · rw [hother, rowOf_callOn_self]
    cases hcache : rowOf caches cacheId with
    | none => rfl
    | some cache => exact get_cleanupExpired (hdistinct cache (mem_of_rowOf hcache))
  · rw [rowOf_callOn_ne hother]

/-- The clock is set back to before an entry was created. -/
theorem cleanupExpired_invisible_skewed :
    ∃ caches, runFrom cachesStep (some [])
        [.create [] .lru 64, .onCache 1 (.addNode 0 0 0),
          .onCache 1 (.put [⟨97, by decide⟩] [1] 5 100 true)] = some caches ∧
      (cachesStep (some caches) (.onCache 1 (.cleanupExpired 90))).map
          (fun after ↦ dcacheGet after 1 [⟨97, by decide⟩] 90) =
        some (dcacheGet caches 1 [⟨97, by decide⟩] 90) := by
  refine ⟨_, rfl, cleanupExpired_invisible
    [.create [] .lru 64, .onCache 1 (.addNode 0 0 0),
      .onCache 1 (.put [⟨97, by decide⟩] [1] 5 100 true)] ?_ rfl 1 1 [⟨97, by decide⟩] 90⟩
  simp only [everyStep_cons, everyStep_nil, CachesShortKey, CacheCall.ShortKey]
  refine ⟨fun _ _ ↦ trivial, fun _ _ _ _ ↦ trivial, fun _ _ _ _ _ ↦ ?_, trivial⟩
  decide

/-! ### Living as put -/

/-- The time of a call. -/
def CacheCall.time : CacheCall → Option UInt64
  | .addNode _ _ now => some now
  | .syncNode _ now => some now
  | .put _ _ _ now _ => some now
  | .get _ now => some now
  | .exists _ now => some now
  | .expireOldEntries now => some now
  | .cleanupExpired now => some now
  | _ => none

/-- The time of a call. -/
def CachesCall.time : CachesCall → Option UInt64
  | .create _ _ _ => none
  | .onCache _ call => call.time

/-- The call leaves a key of a cache: unless it is refused, it does not write, delete or invalidate
the key or give it another time to live, and it does not change the nodes of the cache. -/
def Leaves (cacheId : UInt32) (key : CString) (caches : List DistributedCache) :
    CachesCall → Prop
  | .create _ _ _ => True
  | .onCache called call => called = cacheId → call.Disturbs key →
    ∀ cache, rowOf caches cacheId = some cache → (call.act cache).2 = -1

/-- A call that puts a value. -/
def putCall (cacheId : UInt32) (key : CString) (value : List UInt8) (ttlSeconds : UInt32)
    (start : UInt64) (malloc : Bool) : CachesCall :=
  .onCache cacheId (.put key value ttlSeconds start malloc)

/-- What is claimed of a run. A value that was put with a time to live, and whose key was left
since, is returned until that time is over and not after it. -/
def LivesAsPut (calls : List CachesCall) : Prop :=
  ∀ before since cacheId key value ttlSeconds start malloc now,
    calls = before ++ putCall cacheId key value ttlSeconds start malloc :: since →
    0 < ttlSeconds →
    (∃ caches ∈ runFrom cachesStep (some []) before,
      (callOn caches cacheId fun cache ↦ cache.put key value ttlSeconds start malloc).2 = 0) →
    EveryStep cachesStep (fun running call ↦ ∀ caches ∈ running, Leaves cacheId key caches call)
      (runFrom cachesStep (some [])
        (before ++ [putCall cacheId key value ttlSeconds start malloc])) since →
    Forward (start :: since.filterMap CachesCall.time ++ [now]) →
    (runFrom cachesStep (some []) calls).map (fun caches ↦ dcacheGet caches cacheId key now) =
      some (if clock now ≤ clock start + ttlSeconds.toNat then some value else none)

/-- The condition on a call. An accepted put has a key that is shorter than `MAX_KEY_SIZE`, and if
the key has an entry, the value is no longer than what was allocated for the entry, and if the put
gives it a time to live, the entry was created at the time of the put. -/
def TimelyPut (caches : List DistributedCache) : CachesCall → Prop
  | .onCache cacheId (.put key value ttlSeconds now malloc) =>
    ∀ cache, rowOf caches cacheId = some cache → cache.Accepts key value malloc →
      key.length < maxKeySize ∧ ∀ entry, cache.entryOf key = some entry →
        value.length ≤ entry.buffer ∧ (0 < ttlSeconds → entry.creationTime = now)
  | _ => True

variable {value : List UInt8} {ttlSeconds : UInt32} {start later : UInt64} {cacheId : UInt32}
variable {found : Option CacheEntry} {caches : List DistributedCache} {call : CachesCall}

theorem TimelyPut.shortKey (htimely : TimelyPut caches call) : CachesShortKey caches call := by
  cases call with
  | create name policy maxMemoryMb => trivial
  | onCache cacheId call =>
    intro cache hcache
    cases call with
    | put key value ttlSeconds now malloc =>
      exact fun haccepts ↦ (htimely cache hcache haccepts).1
    | _ => trivial

theorem TimelyPut.putFits (htimely : TimelyPut caches call) : CachesPutFits caches call := by
  cases call with
  | create name policy maxMemoryMb => trivial
  | onCache cacheId call =>
    intro cache hcache
    cases call with
    | put key value ttlSeconds now malloc =>
      intro partition entry hpartition hfind hsize
      have haccepts : cache.Accepts key value malloc := ⟨hsize, partition, hpartition,
        fun hnone ↦ absurd (hfind.symm.trans hnone) (Option.some_ne_none _)⟩
      exact ((htimely cache hcache haccepts).2 entry
        ((entryOf_of_partitionOf hpartition).trans hfind)).1
    | _ => trivial

/-- How an entry is, at a time, that was put with a time to live and left since: it still has the
value and is marked only if it is over, or it is over and was removed. -/
def Lives (value : List UInt8) (ttlSeconds : UInt32) (start now : UInt64)
    (found : Option CacheEntry) : Prop :=
  (∃ entry, found = some entry ∧ entry.value = value ∧ entry.ttlSeconds = ttlSeconds ∧
      entry.creationTime = start ∧
        (entry.isExpired = true → clock start + ttlSeconds.toNat < clock now)) ∨
    found = none ∧ clock start + ttlSeconds.toNat < clock now

/-- An entry goes on living as it does while time passes. -/
theorem Lives.mono (hlives : Lives value ttlSeconds start now found)
    (hle : clock now ≤ clock later) : Lives value ttlSeconds start later found := by
  rcases hlives with ⟨entry, hfound, hvalue, httl, hcreation, hexpired⟩ | ⟨hnone, hover⟩
  · exact Or.inl ⟨entry, hfound, hvalue, httl, hcreation, fun hmark ↦
      Int.lt_of_lt_of_le (hexpired hmark) hle⟩
  · exact Or.inr ⟨hnone, Int.lt_of_lt_of_le hover hle⟩

/-- What is shown of an entry that lives as put. -/
theorem Lives.shown (hlives : Lives value ttlSeconds start now found) (httl : 0 < ttlSeconds)
    (hle : clock start ≤ clock now) :
    (found.bind fun entry ↦ entry.shown now) =
      if clock now ≤ clock start + ttlSeconds.toNat then some value else none := by
  rcases hlives with ⟨entry, rfl, rfl, rfl, rfl, hexpired⟩ | ⟨rfl, hover⟩
  · rw [Option.bind_some, CacheEntry.shown]
    have houtlived := outlived_iff hle
    by_cases hover : clock entry.creationTime + entry.ttlSeconds.toNat < clock now
    · rw [houtlived.mpr ⟨httl, hover⟩, Bool.or_true, if_pos rfl, if_neg (Int.not_le.mpr hover)]
    · have hmark : entry.isExpired = false :=
        Bool.eq_false_iff.mpr fun hmark ↦ hover (hexpired hmark)
      have hnot : entry.outlived now = false :=
        Bool.eq_false_iff.mpr fun hout ↦ hover (houtlived.mp hout).2
      rw [hmark, hnot, if_neg (by decide), if_pos (Int.not_lt.mp hover)]
  · rw [Option.bind_none, if_neg (Int.not_le.mpr hover)]

/-- Assumes: an entry lives as put, up to the time of the get or after it. Reading it leaves it so.
-/
theorem Lives.read (hlives : Lives value ttlSeconds start now found)
    (hle : clock start ≤ clock now) :
    Lives value ttlSeconds start now (found.map fun entry ↦ entry.read now) := by
  rcases hlives with ⟨entry, rfl, rfl, rfl, rfl, hexpired⟩ | ⟨rfl, hover⟩
  · refine Or.inl ⟨entry.read now, rfl, ?_⟩
    rw [CacheEntry.read]
    split_ifs with hmark hout
    · exact ⟨rfl, rfl, rfl, hexpired⟩
    · exact ⟨rfl, rfl, rfl, fun _ ↦ ((outlived_iff hle).mp hout).2⟩
    · exact ⟨rfl, rfl, rfl, fun hset ↦ absurd hset hmark⟩
  · exact Or.inr ⟨rfl, hover⟩

/-- Marking the entries that are over leaves an entry that lives as put. -/
theorem Lives.expire (hlives : Lives value ttlSeconds start now found)
    (hle : clock start ≤ clock now) :
    Lives value ttlSeconds start now (found.map fun entry ↦ entry.expire now) := by
  rcases hlives with ⟨entry, rfl, rfl, rfl, rfl, hexpired⟩ | ⟨rfl, hover⟩
  · refine Or.inl ⟨entry.expire now, rfl, ?_⟩
    rw [CacheEntry.expire]
    split_ifs with hout
    · exact ⟨rfl, rfl, rfl, fun _ ↦ ((outlived_iff hle).mp hout).2⟩
    · exact ⟨rfl, rfl, rfl, hexpired⟩
  · exact Or.inr ⟨rfl, hover⟩

/-- Removing the entries that are over leaves an entry that lives as put, or removes it when it is
over. -/
theorem Lives.cleanup (hlives : Lives value ttlSeconds start now found) (httl : 0 < ttlSeconds)
    (hle : clock start ≤ clock now) :
    Lives value ttlSeconds start now (found.filter fun entry ↦ !entry.isOver now) := by
  rcases hlives with ⟨entry, rfl, hlived⟩ | ⟨rfl, hover⟩
  · by_cases hover : entry.isOver now = true
    · rw [Option.filter_some_neg (by simp [hover])]
      -- a get would not have answered with the entry
      have hshown := Lives.shown (Or.inl ⟨entry, rfl, hlived⟩) httl hle
      rw [Option.bind_some, shown_of_isOver hover] at hshown
      refine Or.inr ⟨rfl, Int.not_le.mp fun hstill ↦ ?_⟩
      rw [if_pos hstill] at hshown
      exact Option.some_ne_none _ hshown.symm
    · rw [Option.filter_some_pos (by simp [hover])]
      exact Or.inl ⟨entry, rfl, hlived⟩
  · exact Or.inr ⟨rfl, hover⟩

/-- A call that does not disturb a key leaves its entry living as put. -/
theorem Lives.entryAfter (hlives : Lives value ttlSeconds start now found) (httl : 0 < ttlSeconds)
    (hstart : clock start ≤ clock now) {call : CacheCall}
    (htime : ∀ time, call.time = some time → clock now ≤ clock time)
    (hlater : clock now ≤ clock later)
    (hlast : ∀ time, call.time = some time → clock time ≤ clock later) :
    Lives value ttlSeconds start later (call.entryAfter key found) := by
  have hat : ∀ time, call.time = some time →
      Lives value ttlSeconds start time found ∧ clock start ≤ clock time :=
    fun time hcall ↦ ⟨hlives.mono (htime time hcall), Int.le_trans hstart (htime time hcall)⟩
  cases call with
  | get other time =>
    obtain ⟨hnow, hsince⟩ := hat time rfl
    rw [CacheCall.entryAfter]
    split_ifs
    · exact (hnow.read hsince).mono (hlast time rfl)
    · exact hlives.mono hlater
  | «exists» other time =>
    obtain ⟨hnow, hsince⟩ := hat time rfl
    rw [CacheCall.entryAfter]
    split_ifs
    · exact (hnow.read hsince).mono (hlast time rfl)
    · exact hlives.mono hlater
  | expireOldEntries time =>
    obtain ⟨hnow, hsince⟩ := hat time rfl
    exact (hnow.expire hsince).mono (hlast time rfl)
  | cleanupExpired time =>
    obtain ⟨hnow, hsince⟩ := hat time rfl
    exact (hnow.cleanup httl hsince).mono (hlast time rfl)
  | _ => exact hlives.mono hlater

/-- A call that is refused leaves the cache. -/
theorem act_of_refused {call : CacheCall} (hdisturbs : call.Disturbs key)
    (hrefused : (call.act cache).2 = -1) : (call.act cache).1 = cache := by
  have hids : ∀ count < maxCacheNodes, (UInt32.ofNat (count + 1)).toInt32.toInt ≠ -1 := by decide
  have hdone : ¬ (0 : Int) = -1 := by decide
  cases call with
  | addNode ip port now =>
    rw [CacheCall.act, DistributedCache.addNode] at hrefused ⊢
    split_ifs at hrefused ⊢ with hfull
    · rfl
    · exact absurd hrefused (hids _ (Nat.not_le.mp hfull))
  | removeNode nodeId =>
    rw [CacheCall.act, DistributedCache.removeNode] at hrefused ⊢
    split_ifs at hrefused ⊢
    rfl
  | put other value ttlSeconds now malloc =>
    rcases put_cases cache other value ttlSeconds now malloc with ⟨-, hsame, -⟩ | ⟨-, hzero, -⟩
    · exact hsame
    · exact absurd (hzero.symm.trans hrefused) hdone
  | delete other =>
    rw [CacheCall.act, DistributedCache.delete] at hrefused ⊢
    cases hpartition : cache.partitionOf other with
    | none => rfl
    | some partition =>
      rw [hpartition] at hrefused
      dsimp only at hrefused ⊢
      cases hfind : partition.find other with
      | none => rfl
      | some entry =>
        rw [hfind] at hrefused
        exact absurd hrefused hdone
  | updateTtl other ttlSeconds =>
    rw [CacheCall.act, DistributedCache.updateTtl] at hrefused ⊢
    cases hpartition : cache.partitionOf other with
    | none => rfl
    | some partition =>
      rw [hpartition] at hrefused
      dsimp only at hrefused ⊢
      cases hfind : partition.find other with
      | none => rfl
      | some entry =>
        rw [hfind] at hrefused
        exact absurd hrefused hdone
  | flushAll => exact absurd hrefused hdone
  | _ => exact hdisturbs.elim

/-! ### Runs -/

/-- A key of a cache whose entry lives as put. -/
def LivesAt (cacheId : UInt32) (key : CString) (value : List UInt8) (ttlSeconds : UInt32)
    (start now : UInt64) (caches : List DistributedCache) : Prop :=
  ∃ cache, rowOf caches cacheId = some cache ∧
    Lives value ttlSeconds start now (cache.entryOf key)

/-- Assumes: the keys of every partition are distinct, and the times of the calls go on from when
they are. A call that leaves a key leaves its entry living as put. -/
theorem livesAt_step (hdistinct : ∀ cache ∈ caches, cache.Distinct)
    (hshort : CachesShortKey caches call) (hleaves : Leaves cacheId key caches call)
    (httl : 0 < ttlSeconds) (hstart : clock start ≤ clock now) (hlater : clock now ≤ clock later)
    (htime : ∀ time, call.time = some time → clock now ≤ clock time ∧ clock time ≤ clock later)
    (hlives : LivesAt cacheId key value ttlSeconds start now caches) :
    LivesAt cacheId key value ttlSeconds start later (cacheStep caches call) := by
  obtain ⟨cache, hcache, hentry⟩ := hlives
  cases call with
  | create name policy maxMemoryMb =>
    refine ⟨cache, ?_, hentry.mono hlater⟩
    rw [cacheStep, dcacheCreate]
    split_ifs
    · exact hcache
    · exact rowOf_concat_of_some hcache
  | onCache called call =>
    rw [LivesAt, cacheStep]
    by_cases hcalled : called = cacheId
    · subst hcalled
      refine ⟨(call.act cache).1, by rw [rowOf_callOn_self, hcache, Option.map_some], ?_⟩
      by_cases hdisturbs : call.Disturbs key
      · rw [act_of_refused hdisturbs (hleaves rfl hdisturbs cache hcache)]
        exact hentry.mono hlater
      · rw [entryOf_act (hdistinct cache (mem_of_rowOf hcache)) hdisturbs (hshort cache hcache)]
        exact hentry.entryAfter httl hstart (fun time hcall ↦ (htime time hcall).1) hlater
          fun time hcall ↦ (htime time hcall).2
    · exact ⟨cache, by rw [rowOf_callOn_ne (Ne.symm hcalled), hcache], hentry.mono hlater⟩

/-- Assumes: the keys of every partition are distinct, and the times of the calls do not go back.
A run that leaves a key leaves its entry living as put. -/
theorem livesAt_runFrom (calls : List CachesCall) (hdistinct : ∀ cache ∈ caches, cache.Distinct)
    (hshort : EveryStep cacheStep CachesShortKey caches calls)
    (hleaves : EveryStep cacheStep (Leaves cacheId key) caches calls) (httl : 0 < ttlSeconds)
    (hstart : clock start ≤ clock now)
    (hforward : Forward (now :: calls.filterMap CachesCall.time ++ [later]))
    (hlives : LivesAt cacheId key value ttlSeconds start now caches) :
    LivesAt cacheId key value ttlSeconds start later (runFrom cacheStep caches calls) := by
  induction calls generalizing caches now with
  | nil =>
    obtain ⟨cache, hcache, hentry⟩ := hlives
    exact ⟨cache, hcache, hentry.mono
      ((List.pairwise_cons.mp hforward).1 later (List.mem_singleton_self later))⟩
  | cons call calls ih =>
    obtain ⟨hcall, hrest⟩ := everyStep_cons.mp hshort
    obtain ⟨hleave, hleft⟩ := everyStep_cons.mp hleaves
    have hnext : ∀ cache ∈ cacheStep caches call, cache.Distinct :=
      distinct_cacheStep hdistinct hcall
    cases htime : call.time with
    | none =>
      rw [List.filterMap_cons_none htime] at hforward
      refine ih hnext hrest hleft hstart hforward ?_
      exact livesAt_step hdistinct hcall hleave httl hstart (Int.le_refl _)
        (fun time hcalled ↦ absurd (htime.symm.trans hcalled).symm (Option.some_ne_none _)) hlives
    | some time =>
      rw [List.filterMap_cons_some htime] at hforward
      obtain ⟨hfirst, hlater⟩ := List.pairwise_cons.mp hforward
      have hle : clock now ≤ clock time := hfirst time List.mem_cons_self
      refine ih hnext hrest hleft (Int.le_trans hstart hle) hlater ?_
      refine livesAt_step hdistinct hcall hleave httl hstart hle (fun other hcalled ↦ ?_) hlives
      obtain rfl := Option.some.inj (htime.symm.trans hcalled)
      exact ⟨hle, Int.le_refl _⟩

/-- Assumes: an accepted put with a time to live that meets the condition. Its entry lives as put.
-/
theorem livesAt_put {malloc : Bool}
    (htimely : TimelyPut caches (putCall cacheId key value ttlSeconds start malloc))
    (httl : 0 < ttlSeconds)
    (haccepted : (callOn caches cacheId fun cache ↦
      cache.put key value ttlSeconds start malloc).2 = 0) :
    LivesAt cacheId key value ttlSeconds start start
      (cacheStep caches (putCall cacheId key value ttlSeconds start malloc)) := by
  cases hcache : rowOf caches cacheId with
  | none =>
    rw [callOn_of_none hcache] at haccepted
    exact absurd haccepted (show (-1 : Int) ≠ 0 by decide)
  | some cache =>
    rw [callOn_of_some hcache] at haccepted
    rcases put_cases cache key value ttlSeconds start malloc with ⟨-, -, hrefused⟩ | ⟨haccepts, -⟩
    · exact absurd haccepted hrefused
    obtain ⟨hshort, hcreated⟩ := htimely cache hcache haccepts
    refine ⟨(cache.put key value ttlSeconds start malloc).1, ?_, Or.inl ⟨_,
      entryOf_put_self haccepts hshort, ?_⟩⟩
    · rw [putCall, cacheStep, rowOf_callOn_self, hcache]
      rfl
    · cases hentry : cache.entryOf key with
      | none => exact ⟨rfl, rfl, rfl, fun hmark ↦ absurd hmark Bool.false_ne_true⟩
      | some entry =>
        exact ⟨rfl, rfl, (hcreated entry hentry).2 httl,
          fun hmark ↦ absurd hmark Bool.false_ne_true⟩

/-- Along every run whose accepted puts have keys shorter than `MAX_KEY_SIZE`, and overwrite an
entry only with a value that fits its buffer and, if they give a time to live, at the time that the
entry was created, a value that was put with a time to live is returned, while its key is left,
until that time is over and not after it. -/
theorem livesAsPut_of_timely (calls : List CachesCall)
    (htimely : EveryStep cachesStep (fun running call ↦ ∀ caches ∈ running, TimelyPut caches call)
      (some []) calls) : LivesAsPut calls := by
  rintro before since cacheId key value ttlSeconds start malloc now rfl httl ⟨_, hmem, haccepted⟩
    hleaves hforward
  set put := putCall cacheId key value ttlSeconds start malloc with hput
  have hgo : ∀ (caches : List DistributedCache) (call : CachesCall), TimelyPut caches call →
      call.overruns caches = false := fun _ _ hcall ↦ overruns_eq_false_iff.mpr hcall.putFits
  have hsplit : before ++ put :: since = (before ++ [put]) ++ since := by simp
  rw [hsplit] at htimely ⊢
  have hprefix : before ++ [put] <+: before ++ [put] ++ since := List.prefix_append _ _
  -- nothing is overrun, so that the program goes on
  have hplain : EveryStep cacheStep TimelyPut [] (before ++ [put] ++ since) :=
    (everyStep_endingStep_iff hgo).mp htimely
  have hruns : ∀ taken, taken <+: before ++ [put] ++ since →
      runFrom cachesStep (some []) taken = some (runFrom cacheStep [] taken) :=
    fun taken htaken ↦ runFrom_endingStep fun done call hdone ↦
      hgo _ _ (hplain.of_prefix htaken done call hdone)
  have hbefore := hruns before ((List.prefix_append _ _).trans hprefix)
  rw [hruns _ hprefix] at hleaves
  rw [hbefore] at hmem
  obtain rfl := Option.some.inj hmem
  have hleft : EveryStep cacheStep (fun caches call ↦
      Leaves cacheId key caches call ∧ TimelyPut caches call)
      (runFrom cacheStep [] (before ++ [put])) since := by
    have hrest := (everyStep_append.mp htimely).2
    rw [hruns _ hprefix] at hrest
    exact (everyStep_endingStep_iff fun _ _ hboth ↦ hgo _ _ hboth.2).mp
      fun taken call htaken caches hcaches ↦
        ⟨hleaves taken call htaken caches hcaches, hrest taken call htaken caches hcaches⟩
  have hdistinct : ∀ cache ∈ runFrom cacheStep [] (before ++ [put]), cache.Distinct :=
    distinct_runFrom (fun taken call htaken caches hcaches ↦
      (htimely.of_prefix hprefix taken call htaken caches hcaches).shortKey) _ (hruns _ hprefix)
  have hlives : LivesAt cacheId key value ttlSeconds start start
      (runFrom cacheStep [] (before ++ [put])) := by
    rw [runFrom_append]
    exact livesAt_put (hplain before put hprefix) httl haccepted
  rw [hruns _ (List.prefix_refl _), Option.map_some, runFrom_append]
  obtain ⟨cache, hcache, hentry⟩ := livesAt_runFrom since hdistinct
    (fun taken call htaken ↦ (hleft taken call htaken).2.shortKey)
    (fun taken call htaken ↦ (hleft taken call htaken).1) httl (Int.le_refl _) hforward hlives
  have hlast : clock start ≤ clock now := by
    refine (List.pairwise_cons.mp hforward).1 now ?_
    exact List.mem_append_right _ (List.mem_singleton_self now)
  rw [dcacheGet, hcache, Option.bind_some, get_snd]
  exact congrArg some (hentry.shown httl hlast)

/-- A value is put, and overwritten by a shorter one at the same time. -/
theorem livesAsPut_overwrite_at_once :
    LivesAsPut
      [.create [] .lru 64, .onCache 1 (.addNode 0 0 0),
        putCall 1 [⟨97, by decide⟩] [1, 2] 10 0 true,
        putCall 1 [⟨97, by decide⟩] [3] 5 0 true] := by
  refine livesAsPut_of_timely _ ?_
  simp only [everyStep_cons, everyStep_nil, TimelyPut, putCall]
  refine ⟨fun _ _ ↦ trivial, fun _ _ ↦ trivial, fun caches hcaches cache hcache _ ↦
    ⟨by decide, fun entry hentry ↦ ?_⟩, fun caches hcaches cache hcache _ ↦
    ⟨by decide, fun entry hentry ↦ ?_⟩, trivial⟩
  · obtain rfl := Option.some.inj hcaches
    obtain rfl := Option.some.inj hcache
    exact absurd hentry.symm (Option.some_ne_none _)
  · obtain rfl := Option.some.inj hcaches
    obtain rfl := Option.some.inj hcache
    obtain rfl := Option.some.inj hentry
    decide

/-- A value that is overwritten after 8 of 10 seconds lives only 2 seconds more. -/
theorem not_livesAsPut_overwrite :
    ¬ LivesAsPut
      [.create [] .lru 64, .onCache 1 (.addNode 0 0 0),
        putCall 1 [⟨97, by decide⟩] [1] 10 0 true,
        putCall 1 [⟨97, by decide⟩] [2] 10 8 true] := by
  intro hlives
  have hread := hlives
    [.create [] .lru 64, .onCache 1 (.addNode 0 0 0), putCall 1 [⟨97, by decide⟩] [1] 10 0 true]
    [] 1 [⟨97, by decide⟩] [2] 10 8 true 15 rfl (by decide) ⟨_, rfl, by decide +kernel⟩
    everyStep_nil (List.pairwise_pair.mpr (by decide))
  revert hread
  decide +kernel

end OneOS.Caching
