import Scap.Crypto.Service

/-!
# The cache of data keys

An entry of the cache is what its stored key unwraps to: the name of an entry hashes every argument of
`unwrap_dek`, so that an entry answers for one stored key only. Hence a lookup with the cache returns
what it returns without.

* `CacheOk` — every entry is right, and there are not too many;
* `cachedUnwrap_spec` — a lookup is transparent and keeps the cache right.
-/

namespace Scap.Crypto

open Scap.Py Scap.Lib

variable {svc : EnvelopeCryptoService} {cache : DekCache} {s : CryptoState} {key : String}
  {w w' : WrappedDek} {context context' : Context} {dek : Bytes} {now : Nat}

/-! ## Names of entries -/

/-- The name of an entry determines what it is an entry for. -/
theorem dekCacheKey_injective (hsha : Function.Injective svc.sha256)
    (h : dekCacheKey svc w context = some key) (h' : dekCacheKey svc w' context' = some key) :
    w = w' ∧ context = context' := by
  obtain ⟨text, htext, hkey⟩ := Option.map_eq_some_iff.mp h
  obtain ⟨text', htext', hkey'⟩ := Option.map_eq_some_iff.mp h'
  have hdocument : cacheDocument svc w text = cacheDocument svc w' text' :=
    utf8_injective (hsha (hkey.trans hkey'.symm))
  have hfields := Value.dumps_injective hdocument
  simp only [Value.obj.injEq, List.cons.injEq, Prod.mk.injEq, true_and, and_true,
    Value.str.injEq] at hfields
  obtain ⟨rfl, huri, hversion, hdigest⟩ := hfields
  have hwrapped : w.wrappedDek = w'.wrappedDek := utf8_injective (hsha hdigest)
  refine ⟨?_, canonicalContext_injective htext htext'⟩
  cases w
  cases w'
  simp_all

/-! ## Right entries -/

/-- The entry is what some stored key unwraps to, under the name of that key. -/
def EntryOk (svc : EnvelopeCryptoService) (e : String × CachedDek) : Prop :=
  ∃ w context, dekCacheKey svc w context = some e.1 ∧
    svc.provider.unwrapDek w context = .ok e.2.value ∧ e.2.value.length = 32

structure CacheOk (svc : EnvelopeCryptoService) (cache : DekCache) : Prop where
  entries : ∀ e ∈ cache.entries, EntryOk svc e
  bounded : cache.entries.length ≤ svc.maxCacheEntries

theorem cacheOk_empty : CacheOk svc .empty :=
  ⟨fun _ h => absurd h List.not_mem_nil, Nat.zero_le _⟩

theorem length_pop_le : (cache.pop key).entries.length ≤ cache.entries.length :=
  List.length_filter_le _ _

theorem CacheOk.pop (h : CacheOk svc cache) : CacheOk svc (cache.pop key) :=
  ⟨fun e he => h.entries e (List.mem_filter.mp he).1, le_trans length_pop_le h.bounded⟩

theorem mem_evict {e : String × CachedDek} (h : e ∈ cache.evict.entries) : e ∈ cache.entries := by
  unfold DekCache.evict at h
  split at h
  · exact h
  · exact (List.mem_filter.mp h).1

/-- Evicting makes room. -/
theorem length_evict_lt (h : cache.entries ≠ []) :
    cache.evict.entries.length < cache.entries.length := by
  unfold DekCache.evict
  split
  · next hnone => exact absurd (List.argmin_eq_none.mp hnone) h
  · next victim hvictim =>
    apply List.length_filter_lt_length_iff_exists.mpr
    exact ⟨victim, List.argmin_mem hvictim, by simp⟩

/-- `_cache_put` of what a stored key unwraps to. -/
theorem CacheOk.put (h : CacheOk svc cache) (hkey : dekCacheKey svc w context = some key)
    (hunwrap : svc.provider.unwrapDek w context = .ok dek) (hlength : dek.length = 32) :
    CacheOk svc (cache.put svc.cacheTtlSeconds svc.maxCacheEntries now key dek) := by
  unfold DekCache.put
  split
  · exact h
  · constructor
    · intro e he
      rcases List.mem_append.mp he with he | he
      · have hkept := (List.mem_filter.mp he).1
        split at hkept
        · exact h.entries e (mem_evict hkept)
        · exact h.entries e hkept
      · rw [List.mem_singleton.mp he]
        exact ⟨w, context, hkey, hunwrap, hlength⟩
    · have hpos := svc.cacheEntries
      have hbounded := h.bounded
      show ((DekCache.pop _ key).entries ++ [_]).length ≤ _
      rw [List.length_append, List.length_singleton]
      refine Nat.succ_le_of_lt (lt_of_le_of_lt length_pop_le ?_)
      split
      · next hfull =>
        have hne : cache.entries ≠ [] := List.ne_nil_of_length_pos (by omega)
        have hroom := length_evict_lt hne
        omega
      · next hroom => omega

/-! ## Lookups -/

/-- What `_cache_get` finds is an entry, and it leaves a right cache right. -/
theorem get_spec (h : CacheOk svc cache) (now : Nat) (key : String) : CacheOk svc (cache.get now key).1 ∧
    ∀ dek, (cache.get now key).2 = some dek → ∃ w context, dekCacheKey svc w context = some key ∧
      svc.provider.unwrapDek w context = .ok dek ∧ dek.length = 32 := by
  unfold DekCache.get
  split
  · exact ⟨h, fun _ hfound => nomatch hfound⟩
  · next e hfind =>
    split
    · exact ⟨h.pop, fun _ hfound => nomatch hfound⟩
    · refine ⟨h, fun dek hfound => ?_⟩
      cases hfound
      have hname : e.1 = key := by simpa using List.find?_some hfind
      rw [← hname]
      exact h.entries e (List.mem_of_find?_eq_some hfind)

/-- A step that touches nothing but the cache. -/
structure CacheStep (svc : EnvelopeCryptoService) (s t : CryptoState) : Prop where
  tables : ∃ cache, t = { s with cache := cache }
  cache : CacheOk svc t.cache

theorem cachePut_spec (h : CacheOk svc s.cache) (hkey : dekCacheKey svc w context = some key)
    (hunwrap : svc.provider.unwrapDek w context = .ok dek) (hlength : dek.length = 32) :
    CacheStep svc s (cachePut svc s key dek) :=
  ⟨⟨_, rfl⟩, h.put hkey hunwrap hlength⟩

/-- **A lookup with the cache returns what it returns without**, and keeps the cache right. -/
theorem cachedUnwrap_spec (hsha : Function.Injective svc.sha256) (h : CacheOk svc s.cache)
    (failed invalid : String) :
    (cachedUnwrap svc s w context failed invalid).2 = plainUnwrap svc w context failed invalid ∧
      CacheStep svc s (cachedUnwrap svc s w context failed invalid).1 := by
  unfold cachedUnwrap plainUnwrap
  cases hkey : dekCacheKey svc w context with
  | none =>
      have hnone : canonicalContext context = none := Option.map_eq_none_iff.mp hkey
      rw [if_pos hnone]
      exact ⟨rfl, ⟨_, rfl⟩, h⟩
  | some key =>
      have hsome : canonicalContext context ≠ none := by
        intro hnone
        rw [dekCacheKey, hnone] at hkey
        cases hkey
      rw [if_neg hsome]
      obtain ⟨hcache, hfound⟩ := get_spec h s.clock key
      cases hget : s.cache.get s.clock key with
      | mk cache found =>
          rw [hget] at hcache hfound
          cases found with
          | some dek =>
              -- the entry was put there for this very stored key
              obtain ⟨w', context', hkey', hunwrap, hlength⟩ := hfound dek rfl
              obtain ⟨rfl, rfl⟩ := dekCacheKey_injective hsha hkey hkey'
              simp only [hget, hunwrap, if_neg (not_not.mpr hlength)]
              exact ⟨trivial, ⟨_, rfl⟩, hcache⟩
          | none =>
              simp only [hget]
              cases hunwrap : svc.provider.unwrapDek w context with
              | error e => exact ⟨rfl, ⟨_, rfl⟩, hcache⟩
              | ok dek =>
                  dsimp only
                  by_cases hlength : dek.length = 32
                  · rw [if_neg (not_not.mpr hlength), if_neg (not_not.mpr hlength)]
                    exact ⟨rfl, ⟨_, rfl⟩, hcache.put hkey hunwrap hlength⟩
                  · rw [if_pos hlength, if_pos hlength]
                    exact ⟨rfl, ⟨_, rfl⟩, hcache⟩

theorem CacheStep.refl (h : CacheOk svc s.cache) : CacheStep svc s s := ⟨⟨_, rfl⟩, h⟩

theorem sessionDek_spec (hsha : Function.Injective svc.sha256) (h : CacheOk svc s.cache)
    (session : ChatSession) (epoch : Int) :
    (sessionDek svc s session epoch).2 = plainSessionDek svc s session epoch ∧
      CacheStep svc s (sessionDek svc s session epoch).1 := by
  unfold sessionDek plainSessionDek
  cases s.epochs.find? (toLex (session.id, epoch)) with
  | none => exact ⟨rfl, .refl h⟩
  | some row => exact cachedUnwrap_spec hsha h _ _

theorem userDek_spec (hsha : Function.Injective svc.sha256) (h : CacheOk svc s.cache)
    (user : User) :
    (userDek svc s user).2 = plainUserDek svc user ∧ CacheStep svc s (userDek svc s user).1 := by
  unfold userDek plainUserDek
  cases user.wrapped with
  | none => exact ⟨rfl, .refl h⟩
  | some w => exact cachedUnwrap_spec hsha h _ _

end Scap.Crypto
