/-!
# Spellings

Where characters can be escaped, a text has many spellings: each of its characters is
written in one of several ways. `Spelled` says that something is a spelling, given the ways
to write one character. What holds of the ways to write one character holds of the
spellings: all of them are read back if the reader takes each character back
(`Spelled.reads`), and keep free of a mark if no character is written with it
(`Spelled.not_mem`).
-/

namespace Rota.Text

variable {α β σ : Type}

/-- **A spelling**, character by character. -/
inductive Spelled (writes : α → List β → Prop) : List α → List β → Prop where
  | nil : Spelled writes [] []
  | cons {c : α} {text : List α} {piece spelling : List β} (first : writes c piece)
    (rest : Spelled writes text spelling) : Spelled writes (c :: text) (piece ++ spelling)

namespace Spelled

variable {writes : α → List β → Prop} {text : List α} {spelling : List β}

/-- **A reader that takes each character back** takes the whole text back. It holds what
was read so far, the last character first. -/
theorem reads (h : Spelled writes text spelling) (read : List α → List β → σ)
    (each : ∀ {c piece}, writes c piece → ∀ done rest,
      read done (piece ++ rest) = read (c :: done) rest)
    (done : List α) (rest : List β) :
    read done (spelling ++ rest) = read (text.reverse ++ done) rest := by
  induction h generalizing done with
  | nil => rfl
  | cons first spelled ih =>
    rw [List.append_assoc, each first, ih, List.reverse_cons, List.append_assoc,
      List.singleton_append]

theorem not_mem (h : Spelled writes text spelling) {mark : β}
    (each : ∀ {c piece}, writes c piece → mark ∉ piece) : mark ∉ spelling := by
  induction h with
  | nil => exact List.not_mem_nil
  | cons first spelled ih =>
    rw [List.mem_append, not_or]
    exact ⟨each first, ih⟩

/-- One way to write each character is a spelling of every text. -/
theorem flatMap {write : α → List β} (each : ∀ c, writes c (write c)) (text : List α) :
    Spelled writes text (text.flatMap write) := by
  induction text with
  | nil => exact .nil
  | cons c text ih => exact .cons (each c) ih

end Spelled

end Rota.Text
