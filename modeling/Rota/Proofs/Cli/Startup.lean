import Mathlib.Tactic.Common
import Rota.Cli.Run

/-!
# What the check of a configuration promises

The check that `check-config` makes is to refuse settings with which the service cannot run.
It looks for an address if the transport is `rest`, but it does not look at the kind of the
transport itself: a configuration that was accepted can be served exactly if it names one of
the two kinds there are (`transport_iff_of_validate`). With any other kind the service ends
with an error before it listens, on every machine.

What a program answers on any machine is said by `Always`: the answer meets a condition,
whatever the machine did on the way there.
-/

namespace Rota

/-! ## Accepted configurations -/

namespace Config

/-- **What is accepted**: no number that is needed is zero, `rest` has an address, and there
is no fault in a schedule. -/
theorem validate_eq_ok_iff (c : Config) :
    c.validate = .ok ()
      ↔ c.dispatcher.queueCapacity ≠ 0 ∧ c.dispatcher.workers ≠ 0 ∧ c.audit.bufferCapacity ≠ 0
        ∧ c.poller.interval ≠ 0 ∧ c.poller.fetchTimeout ≠ 0 ∧ c.dispatcher.deliveryTimeout ≠ 0
        ∧ c.directory.lookupTimeout ≠ 0
        ∧ ¬ (c.provider.kind = "rest" ∧ c.provider.baseUrl.isEmpty = true)
        ∧ schedulesFault? [] c.schedules = none := by
  have passes {p : Prop} [Decidable p] {fault : String} {others : Option String} :
      (if p then some fault else others) = none ↔ ¬ p ∧ others = none := by
    split <;> simp [*]
  have hnone : c.validate = .ok () ↔ c.fault? = none := by
    unfold validate
    cases c.fault? <;> simp
  rw [hnone]
  unfold fault?
  simp only [passes, ne_eq]

theorem baseUrl_of_validate {c : Config} (h : c.validate = .ok ())
    (rest : c.provider.kind = "rest") : c.provider.baseUrl.isEmpty = false := by
  obtain ⟨-, -, -, -, -, -, -, haddress, -⟩ := (validate_eq_ok_iff c).1 h
  exact Bool.eq_false_iff.2 fun hempty => haddress ⟨rest, hempty⟩

end Config

namespace Relay.Transport

/-- **Which transports can be built** from a configuration that was accepted. -/
theorem exists_of_eq_ok_iff {c : Config} (h : c.validate = .ok ()) :
    (∃ t, of c.provider = .ok t) ↔ c.provider.kind = "log" ∨ c.provider.kind = "rest" := by
  unfold of
  by_cases log : c.provider.kind = "log"
  · rw [if_pos log]
    exact ⟨fun _ => .inl log, fun _ => ⟨_, rfl⟩⟩
  · rw [if_neg log]
    by_cases rest : c.provider.kind = "rest"
    · rw [if_pos rest, Config.baseUrl_of_validate h rest]
      exact ⟨fun _ => .inr rest, fun _ => ⟨_, rfl⟩⟩
    · rw [if_neg rest]
      exact ⟨fun ⟨_, ht⟩ => (nomatch ht), fun hkind => absurd hkind (by simp [log, rest])⟩

theorem of_eq_error_of_unknown {p : Config.Provider} (log : p.kind ≠ "log")
    (rest : p.kind ≠ "rest") :
    of p = .error (.configuration ("unknown transport kind '" ++ p.kind ++ "'")) := by
  unfold of
  rw [if_neg log, if_neg rest]

end Relay.Transport

/-! ## Answers on every machine -/

namespace Cli

section Always

variable {m : Type → Type} {α β : Type} {p : α → Prop} {q : β → Prop}

/-- **An answer that always meets a condition**: it could as well be given together with a
proof of it. -/
def Always [Functor m] (p : α → Prop) (answer : m α) : Prop :=
  ∃ proved : m (Subtype p), Subtype.val <$> proved = answer

variable [Monad m] [LawfulMonad m]

theorem always_pure {a : α} (h : p a) : Always p (pure a : m α) :=
  ⟨pure ⟨a, h⟩, map_pure ..⟩

/-- An answer that depends on another one, whatever that is. -/
theorem always_bind {answer : m α} {next : α → m β} (h : ∀ a, Always q (next a)) :
    Always q (answer >>= next) := by
  choose proved hproved using h
  refine ⟨answer >>= proved, ?_⟩
  rw [map_bind]
  exact bind_congr hproved

end Always

/-- **Without a transport nothing is served**: the program ends with an error. -/
theorem code_serve_of_error {m : Type → Type} [Monad m] [LawfulMonad m] (h : Host m)
    {c : Config} {f : Failure} (refused : Relay.Transport.of c.provider = .error f) :
    Always (fun o => o.code = 1) (serve h c) := by
  unfold serve
  rw [refused]
  dsimp only
  -- with an audit log or without one, what follows it is the same
  split <;>
  · refine always_bind fun log => ?_
    cases log with
    | error _ => exact always_pure rfl
    | ok _ =>
      refine always_bind fun directory => ?_
      cases directory <;> exact always_pure rfl

/-- **Which accepted configurations can be served**: those that name one of the two kinds of
transport. With another kind the transport is refused, and on every machine the service ends
with an error. -/
theorem transport_iff_of_validate {c : Config} (valid : c.validate = .ok ()) :
    ((∃ t, Relay.Transport.of c.provider = .ok t)
        ↔ c.provider.kind = "log" ∨ c.provider.kind = "rest")
      ∧ (¬ (c.provider.kind = "log" ∨ c.provider.kind = "rest") →
        Relay.Transport.of c.provider
            = .error (.configuration ("unknown transport kind '" ++ c.provider.kind ++ "'"))
          ∧ ∀ (m : Type → Type) [Monad m] [LawfulMonad m] (h : Host m),
            Always (fun o => o.code = 1) (serve h c)) := by
  refine ⟨Relay.Transport.exists_of_eq_ok_iff valid, fun unknown => ?_⟩
  have refused := Relay.Transport.of_eq_error_of_unknown
    (fun log => unknown (.inl log)) (fun rest => unknown (.inr rest))
  exact ⟨refused, fun m _ _ h => code_serve_of_error h refused⟩

/-- Nothing is wrong with a configuration that names no kind there is. -/
theorem transport_refused_of_validate :
    let c : Config := { provider := { kind := "pigeon" } }
    c.validate = .ok () ∧ ¬ ∃ t, Relay.Transport.of c.provider = .ok t := by
  have valid : Config.validate { provider := { kind := "pigeon" } } = .ok () := by decide
  refine ⟨valid, fun h => ?_⟩
  have hkind := (transport_iff_of_validate valid).1.1 h
  simp at hkind

/-- **The check accepts what the service refuses**: a file that names a kind of transport
there is not passes `check-config`, and `serve` ends with an error. -/
theorem accepted_and_refused :
    let text := "[transport]\nkind = 'pigeon'\n"
    let disk := (Disk.put {} ["home"] .folder).put ["home", "c.toml"] (.file text)
    let program (arguments : List String) : Outcome :=
      ((run (Disk.host "/home") arguments).run disk).1
    (∃ c, Config.parse text = .ok c ∧ c.validate = .ok ()
        ∧ Relay.Transport.of c.provider
          = .error (.configuration "unknown transport kind 'pigeon'"))
      ∧ (program ["-c", "c.toml", "check-config"]).code = 0
      ∧ program ["-c", "c.toml", "serve"]
        = { code := 1
            err := "Error: Configuration error: unknown transport kind 'pigeon'\n" } := by
  refine ⟨⟨{ provider := { kind := "pigeon" } }, ?_, ?_, ?_⟩, ?_, ?_⟩ <;> decide +kernel

end Cli

end Rota
