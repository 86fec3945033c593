import OrdWallet.Handler

/-!
# The fee loop

Every builder's `transfer` starts with `total_fee = 0`, builds at that fee drawing UTXOs, measures
the mock-signed transaction, and returns when the recomputed fee `vsize * fee_per_vbytes / 1000`
equals `total_fee`; otherwise it gives the UTXOs back and builds again at the recomputed fee. The
unbounded `loop` runs here with `fuel` iterations. When giving back restores the manager, the loop
is the iteration of one map on fees: it returns exactly when that iteration reaches a fee at which
the build fails or reproduces the fee, and never returns when it cycles first.
-/

namespace OrdWallet

/-- How a run of the fee loop ends: it returned a result and left a manager, the build panicked,
or the allowed iterations were used up. -/
inductive LoopEnd (ε α : Type)
  | returned (r : Except ε α) (m : UtxoManager)
  | trapped
  | outOfFuel

/-- The result of a finished loop, transformed. -/
def LoopEnd.map {ε α γ : Type} (f : α → γ) : LoopEnd ε α → LoopEnd ε γ
  | returned r m => returned (r.map f) m
  | trapped => trapped
  | outOfFuel => outOfFuel

/-- The error a run returned, if it returned one. -/
def LoopEnd.error? {ε α : Type} : LoopEnd ε α → Option ε
  | returned (.error e) _ => some e
  | _ => none

/-- The value a run returned, if it returned one. -/
def LoopEnd.ok? {ε α : Type} : LoopEnd ε α → Option α
  | returned (.ok a) _ => some a
  | _ => none

/-- The manager a run left, if it returned. -/
def LoopEnd.manager? {ε α : Type} : LoopEnd ε α → Option UtxoManager
  | returned _ m => some m
  | _ => none

/-- The fee of a built transaction: `(vsize(mock_signature(txn)) * fee_per_vbytes) / 1000`,
with the multiplication in `u64`. -/
def recomputedFee (txn : Transaction) (feePerVbytes : ℕ) : ℕ :=
  wrappingMul 64 (mockSignature txn).vsize feePerVbytes / 1000

/-- A recomputed fee is a `u64` divided by 1000. -/
theorem recomputedFee_lt (txn : Transaction) (feePerVbytes : ℕ) :
    recomputedFee txn feePerVbytes < 2 ^ 64 :=
  lt_of_le_of_lt (Nat.div_le_self _ _) (Nat.mod_lt _ (by decide))

section Map

variable {ε α γ : Type} {f : α → γ} {e : LoopEnd ε α} {m : UtxoManager}

theorem LoopEnd.map_eq_returned_ok {c : γ} :
    e.map f = .returned (.ok c) m ↔ ∃ a, e = .returned (.ok a) m ∧ f a = c := by
  cases e with
  | returned r m₀ =>
    cases r with
    | error x => simp [LoopEnd.map, Except.map]
    | ok a =>
      simp only [LoopEnd.map, Except.map, LoopEnd.returned.injEq, Except.ok.injEq]
      exact ⟨fun ⟨hc, hm⟩ => ⟨a, ⟨rfl, hm⟩, hc⟩, fun ⟨_, ⟨ha, hm⟩, hc⟩ => ⟨ha ▸ hc, hm⟩⟩
  | trapped => simp [LoopEnd.map]
  | outOfFuel => simp [LoopEnd.map]

theorem LoopEnd.map_eq_returned_error {x : ε} :
    e.map f = .returned (.error x) m ↔ e = .returned (.error x) m := by
  cases e with
  | returned r m₀ => cases r <;> simp [LoopEnd.map, Except.map]
  | trapped => simp [LoopEnd.map]
  | outOfFuel => simp [LoopEnd.map]

theorem LoopEnd.map_eq_outOfFuel : e.map f = .outOfFuel ↔ e = .outOfFuel := by
  cases e <;> simp [LoopEnd.map]

theorem LoopEnd.error?_eq_some {x : ε} : e.error? = some x ↔ ∃ m, e = .returned (.error x) m := by
  match e with
  | .returned (.error _) _ => simp [LoopEnd.error?]
  | .returned (.ok _) _ => simp [LoopEnd.error?]
  | .trapped => simp [LoopEnd.error?]
  | .outOfFuel => simp [LoopEnd.error?]

theorem LoopEnd.ok?_eq_some {a : α} : e.ok? = some a ↔ ∃ m, e = .returned (.ok a) m := by
  match e with
  | .returned (.error _) _ => simp [LoopEnd.ok?]
  | .returned (.ok _) _ => simp [LoopEnd.ok?]
  | .trapped => simp [LoopEnd.ok?]
  | .outOfFuel => simp [LoopEnd.ok?]

@[simp] theorem LoopEnd.manager?_returned {r : Except ε α} : (LoopEnd.returned r m).manager? = some m :=
  rfl

end Map

section Loop

variable {ε β : Type} (build : ℕ → UtxoManager → Option (Except ε β × UtxoManager))
  (txnOf : β → Transaction) (giveBack : β → UtxoManager → UtxoManager) (feePerVbytes : ℕ)

/-- The loop of `transfer`, from `total_fee` and the manager, for at most `fuel` iterations.
A returned result carries the fee it was built at. -/
def feeLoop : ℕ → ℕ → UtxoManager → LoopEnd ε (β × ℕ)
  | 0, _, _ => .outOfFuel
  | fuel + 1, totalFee, m =>
    match build totalFee m with
    | none => .trapped
    | some (.error e, m') => .returned (.error e) m'
    | some (.ok b, m') =>
      if recomputedFee (txnOf b) feePerVbytes = totalFee then .returned (.ok (b, totalFee)) m'
      else feeLoop fuel (recomputedFee (txnOf b) feePerVbytes) (giveBack b m')

/-- The build at fee `f` from `m` ends the loop: it panics, fails, or reproduces `f`. -/
def Stops (m : UtxoManager) (f : ℕ) : Prop :=
  match build f m with
  | some (.ok b, _) => recomputedFee (txnOf b) feePerVbytes = f
  | _ => True

/-- The fee the loop tries after `f` when the build at `f` from `m` succeeds. -/
def nextFee (m : UtxoManager) (f : ℕ) : Option ℕ :=
  match build f m with
  | some (.ok b, _) => some (recomputedFee (txnOf b) feePerVbytes)
  | _ => none

/-- The fee tried `k` iterations after `f`, the pools staying those of `m`. -/
def feeAfter (m : UtxoManager) : ℕ → ℕ → Option ℕ
  | f, 0 => some f
  | f, k + 1 => (nextFee build txnOf feePerVbytes m f).bind fun f' => feeAfter m f' k

/-- Giving back what a successful build drew restores the manager it started from. -/
def Restores : Prop :=
  ∀ f m b m', build f m = some (.ok b, m') → giveBack b m' = m

variable {build txnOf giveBack feePerVbytes}

/-- A fee that does not stop the loop has a next fee. -/
theorem nextFee_of_not_stops {m : UtxoManager} {f : ℕ}
    (h : ¬Stops build txnOf feePerVbytes m f) :
    ∃ b m', build f m = some (.ok b, m') ∧ recomputedFee (txnOf b) feePerVbytes ≠ f ∧
      nextFee build txnOf feePerVbytes m f = some (recomputedFee (txnOf b) feePerVbytes) := by
  unfold Stops at h
  unfold nextFee
  split at h
  · rename_i b m' hb
    exact ⟨b, m', hb, h, rfl⟩
  · exact absurd trivial h

/-- One iteration when the giving back restores the manager. -/
theorem feeLoop_succ_of_restores (hr : Restores build giveBack) (fuel f : ℕ) (m : UtxoManager)
    (h : ¬Stops build txnOf feePerVbytes m f) :
    ∃ f', nextFee build txnOf feePerVbytes m f = some f' ∧
      feeLoop build txnOf giveBack feePerVbytes (fuel + 1) f m =
        feeLoop build txnOf giveBack feePerVbytes fuel f' m := by
  obtain ⟨b, m', hb, hne, hnext⟩ := nextFee_of_not_stops h
  refine ⟨_, hnext, ?_⟩
  simp only [feeLoop, hb, if_neg hne, hr f m b m' hb]

/-- An iteration whose build stops the loop returns (or panics), whatever the fuel left. -/
theorem feeLoop_succ_ne_outOfFuel_of_stops {m : UtxoManager} {f : ℕ} (fuel : ℕ)
    (h : Stops build txnOf feePerVbytes m f) :
    feeLoop build txnOf giveBack feePerVbytes (fuel + 1) f m ≠ .outOfFuel := by
  unfold Stops at h
  unfold feeLoop
  split
  · exact fun h => LoopEnd.noConfusion h
  · exact fun h => LoopEnd.noConfusion h
  · rename_i b m' hb
    rw [hb] at h
    simp only [h, if_true]
    exact fun h => LoopEnd.noConfusion h

/-- With restoring give-backs, the loop from `f` returns exactly when the fees tried from `f`
reach one that stops it. -/
theorem feeLoop_ne_outOfFuel_iff (hr : Restores build giveBack) (m : UtxoManager) (f : ℕ) :
    (∃ fuel, feeLoop build txnOf giveBack feePerVbytes fuel f m ≠ .outOfFuel) ↔
      ∃ k f', feeAfter build txnOf feePerVbytes m f k = some f' ∧
        Stops build txnOf feePerVbytes m f' := by
  constructor
  · rintro ⟨fuel, hfuel⟩
    induction fuel generalizing f with
    | zero => exact absurd rfl hfuel
    | succ fuel ih =>
      by_cases hs : Stops build txnOf feePerVbytes m f
      · exact ⟨0, f, rfl, hs⟩
      · obtain ⟨f', hnext, heq⟩ := feeLoop_succ_of_restores hr fuel f m hs
        obtain ⟨k, f'', hk, hstop⟩ := ih f' (heq ▸ hfuel)
        exact ⟨k + 1, f'', by simp [feeAfter, hnext, hk], hstop⟩
  · rintro ⟨k, f', hk, hstop⟩
    refine ⟨k + 1, ?_⟩
    induction k generalizing f with
    | zero =>
      obtain rfl : f = f' := by simpa [feeAfter] using hk
      exact feeLoop_succ_ne_outOfFuel_of_stops 0 hstop
    | succ k ih =>
      by_cases hs : Stops build txnOf feePerVbytes m f
      · exact feeLoop_succ_ne_outOfFuel_of_stops (k + 1) hs
      · obtain ⟨f₁, hnext, heq⟩ := feeLoop_succ_of_restores hr (k + 1) f m hs
        rw [heq]
        exact ih f₁ (by simpa [feeAfter, hnext] using hk)

/-- A fee whose build succeeds and recomputes to another fee does not stop the loop. -/
theorem not_stops_of_nextFee {m : UtxoManager} {f g : ℕ}
    (h : nextFee build txnOf feePerVbytes m f = some g) (hne : g ≠ f) :
    ¬Stops build txnOf feePerVbytes m f := by
  unfold nextFee at h
  unfold Stops
  split at h
  · exact fun heq => hne ((Option.some.inj h).symm.trans heq)
  · exact absurd h (by simp)

/-- With restoring give-backs, a set of fees from each of which the build succeeds and
recomputes to another fee of the set keeps the loop running for any number of iterations. -/
theorem feeLoop_outOfFuel_of_closed (hr : Restores build giveBack) (m : UtxoManager)
    (S : ℕ → Prop)
    (hS : ∀ f, S f → ∃ g, nextFee build txnOf feePerVbytes m f = some g ∧ g ≠ f ∧ S g)
    (fuel : ℕ) {f : ℕ} (hf : S f) :
    feeLoop build txnOf giveBack feePerVbytes fuel f m = .outOfFuel := by
  induction fuel generalizing f with
  | zero => rfl
  | succ fuel ih =>
    obtain ⟨g, hg, hne, hSg⟩ := hS f hf
    obtain ⟨f', hnext, heq⟩ := feeLoop_succ_of_restores hr fuel f m (not_stops_of_nextFee hg hne)
    rw [heq]
    exact ih (Option.some.inj (hnext.symm.trans hg) ▸ hSg)

/-- A returned result was built, from the loop's own manager when give-backs restore it, at
the fee it returns, and that fee is the recomputed fee of its transaction. -/
theorem feeLoop_returned_ok (hr : Restores build giveBack) {fuel f f' : ℕ} {m m' : UtxoManager}
    {b : β} (h : feeLoop build txnOf giveBack feePerVbytes fuel f m = .returned (.ok (b, f')) m') :
    build f' m = some (.ok b, m') ∧ recomputedFee (txnOf b) feePerVbytes = f' := by
  induction fuel generalizing f with
  | zero => exact LoopEnd.noConfusion h
  | succ fuel ih =>
    unfold feeLoop at h
    split at h
    · exact LoopEnd.noConfusion h
    · exact LoopEnd.noConfusion h (fun h' _ => Except.noConfusion h')
    · rename_i b₀ m₀ hb
      split at h
      · rename_i hfix
        simp only [LoopEnd.returned.injEq, Except.ok.injEq, Prod.mk.injEq] at h
        obtain ⟨⟨rfl, rfl⟩, rfl⟩ := h
        exact ⟨hb, hfix⟩
      · rw [hr f m b₀ m₀ hb] at h
        exact ih h

/-- A returned failure is the failure of a build from the loop's own manager when give-backs
restore it. -/
theorem feeLoop_returned_error (hr : Restores build giveBack) {fuel f : ℕ} {m m' : UtxoManager}
    {e : ε} (h : feeLoop build txnOf giveBack feePerVbytes fuel f m = .returned (.error e) m') :
    ∃ f', build f' m = some (.error e, m') := by
  induction fuel generalizing f with
  | zero => exact LoopEnd.noConfusion h
  | succ fuel ih =>
    unfold feeLoop at h
    split at h
    · exact LoopEnd.noConfusion h
    · rename_i e₀ m₀ hb
      simp only [LoopEnd.returned.injEq, Except.error.injEq] at h
      obtain ⟨rfl, rfl⟩ := h
      exact ⟨f, hb⟩
    · rename_i b₀ m₀ hb
      split at h
      · exact LoopEnd.noConfusion h (fun h' _ => Except.noConfusion h')
      · rw [hr f m b₀ m₀ hb] at h
        exact ih h

end Loop

end OrdWallet
