import OrdWallet.Concurrency

/-!
# Every call resumes a bounded number of times

Before its build a method awaits at most three times (`EntryPoint.proc_awaitsAtMost`); after it,
`build_and_submit` awaits `ecdsa_sign` once per input and `bitcoin_send_transaction` once. So the
resumes that find a call number at most three per call begun plus one per input and one per
transaction built, and resuming the oldest call again and again ends every call in flight.
-/

namespace OrdWallet

namespace Proc

/-- The process ends after at most `n` more awaits, whatever pools it finds each time it
resumes. -/
def AwaitsAtMost : Proc → ℕ → Prop
  | .done _, _ => True
  | .await .., 0 => False
  | .await _ _ k, n + 1 => ∀ m, (k m).AwaitsAtMost n

variable {n : ℕ}

theorem AwaitsAtMost.mono {p : Proc} (h : p.AwaitsAtMost n) {n' : ℕ} (hn : n ≤ n') :
    p.AwaitsAtMost n' := by
  induction p generalizing n n' with
  | done o => trivial
  | await a m k ih =>
    obtain _ | n := n
    · exact h.elim
    · obtain _ | n' := n'
      · omega
      · exact fun m => ih m (h m) (by omega)

theorem awaitsAtMost_done {o : Outcome} : (Proc.done o).AwaitsAtMost n := trivial

theorem awaitsAtMost_await {a : Await} {m : UtxoManager} {k : UtxoManager → Proc}
    (hk : ∀ m', (k m').AwaitsAtMost n) : (Proc.await a m k).AwaitsAtMost (n + 1) := hk

/-- A conditional await counts when it happens. -/
theorem awaitsAtMost_awaitIf {c : Bool} {a : Await} {m : UtxoManager} {k : UtxoManager → Proc}
    (hk : ∀ m', (k m').AwaitsAtMost n) : (awaitIf c a m k).AwaitsAtMost (n + c.toNat) := by
  cases c
  · exact hk m
  · exact hk

theorem awaitsAtMost_awaitIf_succ {c : Bool} {a : Await} {m : UtxoManager}
    {k : UtxoManager → Proc} (hk : ∀ m', (k m').AwaitsAtMost n) :
    (awaitIf c a m k).AwaitsAtMost (n + 1) :=
  (awaitsAtMost_awaitIf hk).mono (Nat.add_le_add_left (Bool.toNat_le c) n)

theorem awaitsAtMost_ite {c : Prop} [Decidable c] {p q : Proc} (hp : p.AwaitsAtMost n)
    (hq : q.AwaitsAtMost n) : (if c then p else q).AwaitsAtMost n := by
  split
  · exact hp
  · exact hq

theorem awaitsAtMost_afterTransfer {ε : Type} {r : LoopEnd ε TransactionType}
    {committed : UtxoManager} {onError : ε → UtxoManager → Proc}
    (hk : ∀ e m', (onError e m').AwaitsAtMost n) :
    (afterTransfer r committed onError).AwaitsAtMost n := by
  rcases r with ⟨_ | _, _⟩ | _ | _
  · exact hk _ _
  all_goals trivial

end Proc

open Proc

/-- After a failed build, the two-sender method synchronizes only the senders it did not
synchronize before the build. -/
theorem resyncAndRetry_awaitsAtMost {fuel : ℕ} {principal0 caller : Party}
    {arg : MultiSenderTxn.MultiSendTransactionArgument} {x y b0 b1 : Bool} {required : ℕ × ℕ}
    {m₂ m₃ : UtxoManager} :
    (resyncAndRetry fuel principal0 caller arg (x && !b0) (y && !b1) required m₂
      m₃).AwaitsAtMost ((!b0).toNat + (!b1).toNat) :=
  (awaitsAtMost_awaitIf fun _ => awaitsAtMost_awaitIf fun _ =>
    (awaitsAtMost_ite awaitsAtMost_done awaitsAtMost_done : AwaitsAtMost _ 0)).mono
      (by cases x <;> cases y <;> cases b0 <;> cases b1 <;> decide)

/-- A sender is synchronized before the build or after it: two synchronizations in all. -/
theorem syncs_le_two (b0 b1 : Bool) : (!b0).toNat + (!b1).toNat + b1.toNat + b0.toNat ≤ 2 := by
  cases b0 <;> cases b1 <;> decide

/-- Every method reaches at most three awaits, whatever pools it finds when it resumes. -/
theorem EntryPoint.proc_awaitsAtMost (e : EntryPoint) (probe fuel : ℕ) (m : UtxoManager) :
    (e.proc probe fuel m).AwaitsAtMost 3 := by
  cases e <;> dsimp only [EntryPoint.proc, withdrawBitcoinProc,
    withdrawBitcoinFromMultipleAddressesProc, withdrawRunestoneProc,
    withdrawRunestoneWithFeePaidByReceiverProc, withdrawCombinedProc]
  case bitcoin =>
    exact awaitsAtMost_awaitIf_succ fun _ => awaitsAtMost_ite awaitsAtMost_done
      (awaitsAtMost_awaitIf_succ fun _ => awaitsAtMost_afterTransfer fun _ _ =>
        awaitsAtMost_ite awaitsAtMost_done (awaitsAtMost_await fun _ => awaitsAtMost_done))
  case fromMultipleAddresses =>
    exact awaitsAtMost_awaitIf_succ fun _ => (awaitsAtMost_awaitIf fun _ => awaitsAtMost_awaitIf
      fun _ => awaitsAtMost_ite awaitsAtMost_done (awaitsAtMost_afterTransfer fun _ _ =>
        resyncAndRetry_awaitsAtMost)).mono (syncs_le_two _ _)
  case runestone =>
    exact awaitsAtMost_awaitIf_succ fun _ => awaitsAtMost_awaitIf_succ fun _ =>
      awaitsAtMost_ite awaitsAtMost_done (awaitsAtMost_afterTransfer fun _ _ => awaitsAtMost_ite
        (awaitsAtMost_await fun _ => awaitsAtMost_ite awaitsAtMost_done awaitsAtMost_done)
        awaitsAtMost_done)
  case feePaidByReceiver =>
    exact awaitsAtMost_awaitIf_succ fun _ => awaitsAtMost_ite awaitsAtMost_done
      (awaitsAtMost_awaitIf_succ fun _ => awaitsAtMost_afterTransfer fun _ _ => awaitsAtMost_ite
        (awaitsAtMost_await fun _ => awaitsAtMost_ite awaitsAtMost_done awaitsAtMost_done)
        awaitsAtMost_done)
  case combined =>
    exact awaitsAtMost_await fun _ => awaitsAtMost_await fun _ => awaitsAtMost_awaitIf_succ
      fun _ => awaitsAtMost_afterTransfer fun _ _ => awaitsAtMost_done

/-! ### Resumes along an execution -/

/-- Whether the action begins a call. -/
def Action.isCall : Action → Bool
  | .call .. => true
  | _ => false

/-- The awaits of `build_and_submit` for the transactions built: an `ecdsa_sign` per input and a
`bitcoin_send_transaction` each. -/
def World.submissionAwaits (w : World) : ℕ := (w.built.map fun t => t.length + 1).sum

/-- Whether the suspended call has yet to build its transaction. -/
def Suspended.isRest : Suspended → Bool
  | .rest _ => true
  | .submitting _ => false

/-- A suspended call within the budget `b`: before its build it ends after at most `b` more
awaits, whatever pools it finds; in `build_and_submit` it has at most `b` awaits to come. -/
def Suspended.Within : Suspended → ℕ → Prop
  | .rest k, b => ∀ m, (k m).AwaitsAtMost b
  | .submitting n, b => n ≤ b

namespace Execution

/-- One when the action resumes a suspended call, zero otherwise. -/
def resumed (s : Execution) : Action → ℕ
  | .resume i => if (s.suspended[i]?).isSome then 1 else 0
  | _ => 0

/-- How many actions of the run resume a suspended call. -/
def resumes : Execution → List Action → ℕ
  | _, [] => 0
  | s, a :: as => s.resumed a + (s.step a).resumes as

/-- Budgets of the suspended calls: the `i`-th is within `bs[i]`. -/
def Budgets (s : Execution) (bs : List ℕ) : Prop := List.Forall₂ Suspended.Within s.suspended bs

end Execution

@[simp] theorem Suspended.countP_isRest_submission (o : Outcome) :
    o.submission.countP Suspended.isRest = 0 := by
  cases o <;> rfl

@[simp] theorem Suspended.countP_isRest_submittingAfter (n : ℕ) :
    (Suspended.submittingAfter n).countP Suspended.isRest = 0 := by
  cases n <;> rfl

/-- A call that ends leaves its `build_and_submit` within budgets that add up to what the awaits
of the world's submissions grow by. -/
theorem Suspended.within_submission (o : Outcome) (w : World) :
    ∃ bs, List.Forall₂ Suspended.Within o.submission bs ∧
      bs.sum + bs.length + w.submissionAwaits = (o.settle w).submissionAwaits := by
  cases o
  case submitted tt m =>
    refine ⟨[tt.spentUtxos.length], .cons (le_refl _) .nil, ?_⟩
    simp [Outcome.settle, World.submissionAwaits]
    omega
  all_goals exact ⟨[], .nil, by simp [Outcome.settle]⟩

/-- A call resumed in `build_and_submit` leaves the rest of it within budgets that add up to
the awaits it had to come. -/
theorem Suspended.within_submittingAfter (n : ℕ) :
    ∃ bs, List.Forall₂ Suspended.Within (Suspended.submittingAfter n) bs ∧
      bs.sum + bs.length = n := by
  cases n with
  | zero => exact ⟨[], .nil, rfl⟩
  | succ n => exact ⟨[n], .cons (le_refl n) .nil, rfl⟩

/-- Erasing the `i`-th entry of a list and of its budgets keeps them paired, and takes the
entry's budget and its one place out of the sum. -/
theorem forall₂_eraseIdx {α : Type} {R : α → ℕ → Prop} {l : List α} {bs : List ℕ}
    (h : List.Forall₂ R l bs) {i : ℕ} {c : α} (hc : l[i]? = some c) :
    ∃ b, R c b ∧ List.Forall₂ R (l.eraseIdx i) (bs.eraseIdx i) ∧
      (bs.eraseIdx i).sum + (bs.eraseIdx i).length + (b + 1) = bs.sum + bs.length := by
  induction h generalizing i with
  | nil => simp at hc
  | @cons a b l bs hab hr ih =>
    cases i with
    | zero =>
      obtain rfl : a = c := by simpa using hc
      refine ⟨b, hab, hr, ?_⟩
      simp only [List.eraseIdx_cons_zero, List.sum_cons, List.length_cons]
      omega
    | succ i =>
      obtain ⟨b', hb', hr', hsum⟩ := ih (by simpa using hc)
      refine ⟨b', hb', .cons hab hr', ?_⟩
      simp only [List.eraseIdx_cons_succ, List.sum_cons, List.length_cons]
      omega

namespace Execution

variable {s : Execution}

namespace Budgets

variable {bs : List ℕ}

/-- A segment that ends after at most `n` more awaits adds at most `n` to the budgets, counting
one for the call it suspends; a call that ends adds the awaits of its submission to them and to
the world's. -/
theorem settle (h : s.Budgets bs) {p : Proc} {n : ℕ} (hp : p.AwaitsAtMost n) :
    ∃ bs', (s.settle p).Budgets bs' ∧ bs'.sum + bs'.length + s.world.submissionAwaits ≤
      bs.sum + bs.length + n + (s.settle p).world.submissionAwaits := by
  cases p with
  | done o =>
    obtain ⟨bs₀, h₀, hsum⟩ := Suspended.within_submission o s.world
    refine ⟨bs ++ bs₀, List.rel_append h h₀, ?_⟩
    simp only [Execution.settle, List.sum_append, List.length_append]
    omega
  | await a m k =>
    obtain _ | n := n
    · exact hp.elim
    · refine ⟨bs ++ [n], List.rel_append h (.cons hp .nil), ?_⟩
      simp only [List.sum_append, List.length_append, List.sum_singleton, List.length_singleton]
      exact Nat.add_le_add_right (by omega) _

/-- A call adds at most three to the budgets; a resume that finds a call takes one away. -/
theorem step (h : s.Budgets bs) (a : Action) :
    ∃ bs', (s.step a).Budgets bs' ∧
      s.resumed a + bs'.sum + bs'.length + s.world.submissionAwaits ≤
        bs.sum + bs.length + 3 * a.isCall.toNat + (s.step a).world.submissionAwaits := by
  cases a with
  | call entry probe fuel =>
    obtain ⟨bs', h', hle⟩ := h.settle (entry.proc_awaitsAtMost probe fuel s.world.manager)
    exact ⟨bs', h', by simpa [resumed, Action.isCall] using hle⟩
  | resume i =>
    cases hc : s.suspended[i]? with
    | none =>
      refine ⟨bs, ?_, by simp [resumed, hc, Action.isCall, Execution.step]⟩
      simp only [Execution.step, hc]
      exact h
    | some c =>
      obtain ⟨b, hb, hr, hsum⟩ := forall₂_eraseIdx h hc
      have hrest : Execution.Budgets ⟨s.world, s.suspended.eraseIdx i⟩ (bs.eraseIdx i) := hr
      have hfound : s.resumed (.resume i) = 1 := by simp [resumed, hc]
      cases c with
      | rest k =>
        obtain ⟨bs', h', hle⟩ := hrest.settle (hb s.world.manager)
        refine ⟨bs', by simpa only [Execution.step, hc] using h', ?_⟩
        simp only [Execution.step, hc, hfound, Action.isCall, Bool.toNat_false] at hle ⊢
        omega
      | submitting n =>
        obtain ⟨bs₀, h₀, hsum₀⟩ := Suspended.within_submittingAfter n
        have h' : List.Forall₂ Suspended.Within _ _ := List.rel_append hr h₀
        refine ⟨bs.eraseIdx i ++ bs₀, by simpa only [Execution.step, hc, Budgets] using h', ?_⟩
        simp only [Execution.step, hc, hfound, Action.isCall, Bool.toNat_false, List.sum_append,
          List.length_append]
        have hnb : n ≤ b := hb
        omega
  | _ => exact ⟨bs, h, by simp [resumed, Action.isCall, Execution.step, World.step,
      World.submissionAwaits]⟩

theorem run (h : s.Budgets bs) (as : List Action) :
    ∃ bs', (s.run as).Budgets bs' ∧
      s.resumes as + bs'.sum + bs'.length + s.world.submissionAwaits ≤
        bs.sum + bs.length + 3 * as.countP Action.isCall + (s.run as).world.submissionAwaits := by
  induction as generalizing s bs with
  | nil => exact ⟨bs, h, by simp [resumes, Execution.run]⟩
  | cons a as ih =>
    obtain ⟨bs₁, h₁, hle₁⟩ := h.step a
    obtain ⟨bs₂, h₂, hle₂⟩ := ih h₁
    have hcall : (if a.isCall = true then 1 else 0) = a.isCall.toNat := by cases a.isCall <;> rfl
    refine ⟨bs₂, h₂, ?_⟩
    simp only [resumes, List.countP_cons, Execution.run_cons] at hle₂ ⊢
    omega

end Budgets

end Execution

end OrdWallet
