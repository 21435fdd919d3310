import Rota.Proofs.Directory.Recall

/-!
# Who is meant by a key

A key leads to the person whom the directory names; and if the directory fails,
to the person remembered under the key, if that was not too long ago.
`Resolver.LeadsTo` says so without a word about how it is computed. A resolver
finds exactly whom the key leads to (`resolve_eq_ok_iff`), and for a channel it
finds that person or says what is missing (`resolveFor_found`).
-/

namespace Rota.Directory.Resolver

/-- **Who is meant by a key**, given what the directory says at this time. -/
inductive LeadsTo (r : Resolver) (now : Nat) (key : Key) (answer : Except Failure Identity) :
    Identity → Prop
  | named {person : Identity} (named : answer = .ok person) : LeadsTo r now key answer person
  /-- The directory fails, and somebody stands in. -/
  | remembered {failure : Failure} {entry : Remembered} (failed : answer = .error failure)
      (known : r.cache.get? key = some entry) (fresh : entry.isFresh r.maxAge now = true) :
      LeadsTo r now key answer entry.person

section Resolve

variable (r : Resolver) (now : Nat) (key : Key) (channel : Channel)
  (answer : Except Failure Identity) (person : Identity)

theorem cached_eq_some_iff :
    r.cached now key = some person
      ↔ ∃ entry, r.cache.get? key = some entry ∧ entry.isFresh r.maxAge now = true
        ∧ entry.person = person := by
  unfold cached
  cases r.cache.get? key with
  | none => simp
  | some entry =>
    have hfresh := isFresh_eq entry r.maxAge now
    cases hold : r.maxAge.any (fun most => most < now - entry.since) <;> simp_all

/-- **A resolver finds exactly the person whom the key leads to.** -/
theorem resolve_eq_ok_iff :
    (r.resolve now key answer).1 = .ok person ↔ r.LeadsTo now key answer person := by
  cases answer with
  | ok found =>
    constructor
    · intro h
      exact .named h
    · rintro (h | ⟨h, -, -⟩)
      · exact h
      · cases h
  | error failure =>
    have hiff : (r.resolve now key (.error failure)).1 = .ok person
        ↔ r.cached now key = some person := by
      unfold resolve
      cases r.cached now key <;> simp
    rw [hiff, cached_eq_some_iff]
    constructor
    · rintro ⟨entry, known, fresh, rfl⟩
      exact .remembered rfl known fresh
    · rintro (h | ⟨-, known, fresh⟩)
      · cases h
      · exact ⟨_, known, fresh, rfl⟩

/-- A key leads to one person at most. -/
theorem LeadsTo.unique {r : Resolver} {now : Nat} {key : Key} {answer : Except Failure Identity}
    {p q : Identity} (hp : r.LeadsTo now key answer p) (hq : r.LeadsTo now key answer q) :
    p = q :=
  Except.ok.inj (((resolve_eq_ok_iff r now key answer p).2 hp).symm.trans
    ((resolve_eq_ok_iff r now key answer q).2 hq))

/-- A failure to resolve says that nobody is known under the key. -/
theorem resolve_error {failure : Failure} (h : (r.resolve now key answer).1 = .error failure) :
    failure = .unknownPerson key.text := by
  cases answer with
  | ok _ => cases h
  | error _ =>
    unfold resolve at h
    cases hc : r.cached now key with
    | none =>
      rw [hc] at h
      exact (Except.error.inj h).symm
    | some _ =>
      rw [hc] at h
      cases h

/-- **What comes of a key and a channel**: the person whom the key leads to, if they can
be reached; or else what is missing. -/
inductive Found (r : Resolver) (now : Nat) (key : Key) (channel : Channel)
    (answer : Except Failure Identity) : Except Failure Identity → Prop
  | reached {person : Identity} (leads : r.LeadsTo now key answer person)
      (reachable : person.reachable channel = .ok ()) : Found r now key channel answer (.ok person)
  | unverified {person : Identity} (leads : r.LeadsTo now key answer person)
      (needs : channel.needsPhone = true) (unverified : person.verifiedPhone = none) :
      Found r now key channel answer (.error (.unverifiedPhone person.email))
  | unknown (nobody : ∀ person, ¬ r.LeadsTo now key answer person) :
      Found r now key channel answer (.error (.unknownPerson key.text))

theorem resolveFor_found :
    r.Found now key channel answer (r.resolveFor now key channel answer).1 := by
  unfold resolveFor
  cases hr : (r.resolve now key answer).1 with
  | error failure =>
    have hnobody : ∀ person, ¬ r.LeadsTo now key answer person := by
      intro person hl
      rw [(resolve_eq_ok_iff r now key answer person).2 hl] at hr
      cases hr
    show r.Found now key channel answer ((r.resolve now key answer).1.bind _)
    rw [hr, resolve_error r now key answer hr]
    exact .unknown hnobody
  | ok person =>
    have hl := (resolve_eq_ok_iff r now key answer person).1 hr
    show r.Found now key channel answer ((r.resolve now key answer).1.bind _)
    rw [hr]
    show r.Found now key channel answer ((person.reachable channel).map fun _ => person)
    unfold Identity.reachable
    split
    · next hn =>
      simp only [Bool.and_eq_true, Option.isNone_iff_eq_none] at hn
      exact .unverified hl hn.1 hn.2
    · next hn =>
      refine .reached hl ?_
      unfold Identity.reachable
      rw [if_neg hn]

end Resolve

/-- Whom a resolver finds for a channel can be reached there. -/
theorem Found.reachable {r : Resolver} {now : Nat} {key : Key} {channel : Channel}
    {answer : Except Failure Identity} {person : Identity}
    (h : r.Found now key channel answer (.ok person)) : person.reachable channel = .ok () := by
  cases h with
  | reached _ hr => exact hr

end Rota.Directory.Resolver
