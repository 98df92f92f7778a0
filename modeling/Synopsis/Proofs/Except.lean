/-!
# Results

A computation of several steps has a result when each of its steps has one.
-/
namespace Synopsis

variable {ε α β : Type}

/-- Two steps one after the other have a result when each of them has. -/
theorem bind_ok_iff {first : Except ε α} {next : α → Except ε β} {last : β} :
    first >>= next = .ok last ↔ ∃ found, first = .ok found ∧ next found = .ok last := by
  cases first with
  | ok found =>
    refine ⟨fun done => ⟨found, rfl, done⟩, ?_⟩
    rintro ⟨_, ⟨⟩, done⟩
    exact done
  | error fault =>
    refine ⟨nofun, ?_⟩
    rintro ⟨_, ⟨⟩, _⟩

/-- A fault ends a computation. -/
theorem error_bind (fault : ε) (next : α → Except ε β) :
    (.error fault : Except ε α) >>= next = .error fault := rfl

/-- A result that is a pair determines both of its members. -/
theorem ok_pair_inj {one first : α} {other second : β}
    (same : (.ok (one, other) : Except ε (α × β)) = .ok (first, second)) :
    one = first ∧ other = second :=
  Prod.mk.inj (Except.ok.inj same)

end Synopsis
