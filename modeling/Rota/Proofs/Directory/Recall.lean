import Mathlib.Data.List.Induction
import Rota.Directory.Resolver
import Rota.Proofs.Directory.Live

/-!
# What a resolver answers

A resolver remembers, and its answers depend on what it remembers. Here they
are given as a function of its history alone: of the inquiries made so far, the
replies of the directory to them, and the clock.

`resolver_recalls` is the law. When the directory answers in time, its word
counts. When it does not – whatever the reason – the live entry that the key
names stands in, unless it is too old; and without one, nobody is known. The
step lemma behind it is `holds_ask`: every inquiry leaves the cache holding the
live entries of the history.
-/

namespace Rota.Directory

open Rota.Relay (Reply)

/-- **An inquiry**: the key, the channel over which the person shall be
reachable, if any, the reply that the directory has for it, and the clock when
the reply, or the end of the wait for it, is there. -/
structure Inquiry where
  key : Key
  channel : Option Channel := none
  reply : Reply (Except Failure Identity)
  now : Nat

namespace Inquiry

/-- What the directory is taken to say to an inquiry. -/
def answer (q : Inquiry) (timeout : Nat) : Except Failure Identity :=
  Resolver.heard q.key (q.reply.within timeout).2

/-- A person, if they can be reached over the channel of the inquiry. -/
def forChannel (q : Inquiry) (person : Identity) : Except Failure Identity :=
  match q.channel with
  | none => .ok person
  | some channel => (person.reachable channel).map fun _ => person

/-- **What there is to remember** after an inquiry: whom the directory named,
if they can be found again. -/
def learned (q : Inquiry) (timeout : Nat) : Option Remembered :=
  match q.answer timeout with
  | .ok person =>
    if person.id.isEmpty || person.email.isEmpty then none
    else some { person, since := q.now }
  | .error _ => none

end Inquiry

/-- Is the age of an entry not above the highest age, if there is one? -/
def Remembered.isFresh (e : Remembered) (maxAge : Option Nat) (now : Nat) : Bool :=
  maxAge.all (fun most => now - e.since ≤ most)

namespace Resolver

/-- **Make an inquiry.** -/
def ask (r : Resolver) (q : Inquiry) : Except Failure Identity × Resolver :=
  match q.channel with
  | none => r.resolve q.now q.key (q.answer r.lookupTimeout)
  | some channel => r.resolveFor q.now q.key channel (q.answer r.lookupTimeout)

/-- Make inquiries one after the other. -/
def askAll (r : Resolver) (past : List Inquiry) : Resolver :=
  past.foldl (fun r q => (r.ask q).2) r

/-- The channel has no say in what the resolver learns, only in whether the
person found will do. -/
theorem ask_eq (r : Resolver) (q : Inquiry) :
    r.ask q
      = ((r.resolve q.now q.key (q.answer r.lookupTimeout)).1.bind q.forChannel,
          (r.resolve q.now q.key (q.answer r.lookupTimeout)).2) := by
  unfold ask Inquiry.forChannel
  cases q.channel with
  | none =>
    cases h : r.resolve q.now q.key (q.answer r.lookupTimeout) with
    | mk result r' => cases result <;> rfl
  | some channel => rfl

/-! ## One inquiry -/

section Ask

variable {r : Resolver} {known : List Remembered}

/-- Remembering someone changes the cache alone. -/
theorem remember_eq (r : Resolver) (now : Nat) (person : Identity) :
    r.remember now person = { r with cache := (r.remember now person).cache } := by
  unfold remember
  split <;> rfl

theorem isFresh_eq (e : Remembered) (maxAge : Option Nat) (now : Nat) :
    e.isFresh maxAge now = !maxAge.any (fun most => most < now - e.since) := by
  unfold Remembered.isFresh
  cases maxAge with
  | none => rfl
  | some most =>
    show decide (now - e.since ≤ most) = !decide (most < now - e.since)
    simp only [← decide_not, Nat.not_lt]

/-- **Who stands in**: the entry that the key names, if it is fresh. -/
theorem cached_eq (h : r.cache.Holds known) (now : Nat) (key : Key) :
    r.cached now key
      = (known.find? (fun e => e.person.isNamedBy key && e.isFresh r.maxAge now)).map
          Remembered.person := by
  cases hf : known.find? (fun e => e.person.isNamedBy key && e.isFresh r.maxAge now) with
  | none =>
    rw [List.find?_eq_none] at hf
    unfold cached
    cases hg : r.cache.get? key with
    | none => rfl
    | some entry =>
      obtain ⟨he, hn⟩ := (h.get?_eq_some_iff key entry).1 hg
      have hstale := hf entry he
      rw [hn, Bool.true_and, isFresh_eq] at hstale
      simp only [Option.map_none]
      rw [if_pos (by simpa using hstale)]
  | some entry =>
    have hprop := List.find?_some hf
    rw [Bool.and_eq_true, isFresh_eq] at hprop
    have hg := (h.get?_eq_some_iff key entry).2 ⟨List.mem_of_find?_eq_some hf, hprop.1⟩
    unfold cached
    rw [hg]
    simp only [Option.map_some]
    rw [if_neg (by simpa using hprop.2)]

/-- **An answer of the directory** is passed on, and nobody stands in. -/
theorem ask_of_ok (q : Inquiry) {person : Identity}
    (h : q.answer r.lookupTimeout = .ok person) :
    r.ask q = (q.forChannel person, r.remember q.now person) := by
  rw [ask_eq, h]
  rfl

/-- **Any failure of the directory** has the same outcome. -/
theorem ask_of_error (q : Inquiry) {failure : Failure}
    (h : q.answer r.lookupTimeout = .error failure) :
    r.ask q = match r.cached q.now q.key with
      | some person => (q.forChannel person, { r with fallbackHits := r.fallbackHits + 1 })
      | none => (.error (.unknownPerson q.key.text), r) := by
  rw [ask_eq, h]
  unfold resolve
  cases r.cached q.now q.key <;> rfl

/-- An inquiry changes neither the highest age nor the timeout. -/
theorem settings_ask (r : Resolver) (q : Inquiry) :
    (r.ask q).2.maxAge = r.maxAge ∧ (r.ask q).2.lookupTimeout = r.lookupTimeout := by
  cases h : q.answer r.lookupTimeout with
  | ok person =>
    rw [ask_of_ok q h, remember_eq]
    exact ⟨rfl, rfl⟩
  | error failure =>
    rw [ask_of_error q h]
    cases r.cached q.now q.key <;> exact ⟨rfl, rfl⟩

/-- **One inquiry**, seen from the cache: it goes on holding the live entries
of the history. -/
theorem holds_ask {past : List Remembered} (h : r.cache.Holds (live past)) (q : Inquiry) :
    (r.ask q).2.cache.Holds (live (past ++ (q.learned r.lookupTimeout).toList)) := by
  unfold Inquiry.learned
  cases ha : q.answer r.lookupTimeout with
  | ok person =>
    rw [ask_of_ok q ha]
    unfold remember
    by_cases hp : person.id.isEmpty || person.email.isEmpty
    · -- who cannot be found again is not remembered
      simpa only [if_pos hp, Option.toList_none, List.append_nil] using h
    · simp only [if_neg hp, Option.toList_some]
      rw [live_concat]
      exact h.insert q.now person
  | error failure =>
    rw [ask_of_error q ha]
    simp only [Option.toList_none, List.append_nil]
    cases r.cached q.now q.key <;> exact h

end Ask

/-! ## All inquiries -/

/-- **The cache holds the live entries** of the history, after any inquiries. -/
theorem holds_askAll (r : Resolver) (h : r.cache.Holds []) (past : List Inquiry) :
    (r.askAll past).cache.Holds (live (past.filterMap (·.learned r.lookupTimeout)))
      ∧ (r.askAll past).maxAge = r.maxAge
      ∧ (r.askAll past).lookupTimeout = r.lookupTimeout := by
  induction past using List.reverseRecOn with
  | nil => exact ⟨h, rfl, rfl⟩
  | append_singleton past q ih =>
    obtain ⟨hcache, hage, htime⟩ := ih
    have hstep : r.askAll (past ++ [q]) = ((r.askAll past).ask q).2 := by
      simp [askAll]
    have hnext := holds_ask hcache q
    obtain ⟨hage', htime'⟩ := settings_ask (r.askAll past) q
    rw [hstep, hage', htime', List.filterMap_append]
    refine ⟨?_, hage, htime⟩
    rw [htime] at hnext
    have hlast : [q].filterMap (·.learned r.lookupTimeout)
        = (q.learned r.lookupTimeout).toList := by
      cases hq : q.learned r.lookupTimeout <;> simp [hq]
    rw [hlast]
    exact hnext

/-- **The law of the resolver.** Its answer to an inquiry depends on its
history alone, and the same goes for the number of people remembered: they are
the live ones of the history. If the directory answers in time, that is the
answer, and nobody stands in. If it fails, no matter how, the only live entry
that the key names stands in if it is fresh, and this is counted; otherwise
nobody is known. A failure leaves the cache as it was. -/
theorem resolver_recalls (maxAge : Option Nat) (timeout : Nat) (past : List Inquiry)
    (q : Inquiry) :
    let r : Resolver := askAll { maxAge, lookupTimeout := timeout } past
    let known := live (past.filterMap (·.learned timeout))
    r.cache.size = known.length
      ∧ (∀ e ∈ known, ∀ f ∈ known,
          e.person.isNamedBy q.key → f.person.isNamedBy q.key → e = f)
      ∧ match q.answer timeout with
        | .ok person =>
          (r.ask q).1 = q.forChannel person ∧ (r.ask q).2.fallbackHits = r.fallbackHits
        | .error _ =>
          (r.ask q).2.cache.byId = r.cache.byId
            ∧ (r.ask q).2.cache.idByEmail = r.cache.idByEmail
            ∧ match known.find? (fun e => e.person.isNamedBy q.key && e.isFresh maxAge q.now) with
              | some e =>
                (r.ask q).1 = q.forChannel e.person
                  ∧ (r.ask q).2.fallbackHits = r.fallbackHits + 1
              | none =>
                (r.ask q).1 = .error (.unknownPerson q.key.text)
                  ∧ (r.ask q).2.fallbackHits = r.fallbackHits := by
  intro r known
  obtain ⟨hcache, hage, htime⟩ :=
    holds_askAll { maxAge, lookupTimeout := timeout } Cache.holds_empty past
  refine ⟨hcache.size_eq, ?_, ?_⟩
  · intro e he f hf hen hfn
    exact live_unique he hf (Remembered.clashes_of_isNamedBy hen hfn)
  · cases ha : q.answer timeout with
    | ok person =>
      have hask := ask_of_ok (r := r) q (by rw [htime]; exact ha)
      rw [hask, remember_eq]
      exact ⟨rfl, rfl⟩
    | error failure =>
      have hask := ask_of_error (r := r) q (by rw [htime]; exact ha)
      have hin := cached_eq hcache q.now q.key
      rw [hage] at hin
      rw [hask, hin]
      cases known.find? (fun e => e.person.isNamedBy q.key && e.isFresh maxAge q.now) with
      | none => exact ⟨rfl, rfl, rfl, rfl⟩
      | some e => exact ⟨rfl, rfl, rfl, rfl⟩

end Resolver

end Rota.Directory
