import OrdWallet.Locality

/-!
# Events and calls on different principals commute

By the locality of builders and methods, a change of the pools at addresses an event does not
name changes nothing the event sees or does, and by the frame of the isolation module the event
leaves the pools at those addresses as they were. So two events that name no common address
commute: in either order they leave the same pools and build the same transactions, and so do two
runs of such events. The same argument one level up makes two whole calls on disjoint principals
commute, when their synchronizers record what the chain reports. Both rest on one diamond lemma,
`UtxoManager.eq_of_diamond`.
-/

namespace OrdWallet

open UtxoManager

/-- Two changes of the pools, in either order, end at the same pools when each keeps the pools
outside its addresses, and does at its addresses after the other what it does first. -/
theorem UtxoManager.eq_of_diamond {A₁ A₂ : List String} (hd : A₁.Disjoint A₂)
    {m m₁ m₂ m₁₂ m₂₁ : UtxoManager} (hf₁ : ∀ a ∉ A₁, SameAt a m m₁ ∧ SameAt a m₂ m₂₁)
    (hf₂ : ∀ a ∉ A₂, SameAt a m m₂ ∧ SameAt a m₁ m₁₂) (h₁ : Agree A₁ m₁ m₂₁)
    (h₂ : Agree A₂ m₂ m₁₂) : m₁₂ = m₂₁ := by
  refine eq_of_sameAt fun a => ?_
  by_cases ha₁ : a ∈ A₁
  · exact (hf₂ a fun ha₂ => hd ha₁ ha₂).2.symm.trans (h₁ a ha₁)
  by_cases ha₂ : a ∈ A₂
  · exact (h₂ a ha₂).symm.trans (hf₁ a ha₁).2
  · exact ((hf₂ a ha₂).2.symm.trans (hf₁ a ha₁).1.symm).trans ((hf₂ a ha₂).1.trans (hf₁ a ha₁).2)

/-! ### Events -/

/-- The addresses whose pools an event reads or writes. -/
def Event.addrs : Event → List String
  | .syncBitcoin addr _ => [addr]
  | .syncRunic addr _ _ => [addr]
  | .transfer _ req => req.addrs

/-- The inputs of the transactions an event builds from the pools of `m`. -/
def Event.builds (m : UtxoManager) : Event → List (List OutPoint)
  | .transfer fuel req =>
    match req.transfer fuel m with
    | .returned (.ok tt) _ => [tt.spentUtxos.map (·.outpoint)]
    | _ => []
  | _ => []

/-- An event that does not name `a` spares it. -/
theorem Event.spares_of_not_mem {a : String} {e : Event} (h : a ∉ e.addrs) : e.Spares a := by
  cases e with
  | transfer => exact h
  | _ => exact fun h' => h (by simp [Event.addrs, h'])

namespace World

/-- An event appends what it builds to the built transactions. -/
theorem built_step (w : World) (e : Event) : (w.step e).built = w.built ++ e.builds w.manager := by
  cases e with
  | transfer fuel req =>
    simp only [World.step, Event.builds]
    generalize req.transfer fuel w.manager = r
    rcases r with ⟨_ | _, _⟩ | _ | _ <;> simp
  | _ => simp [World.step, Event.builds]

/-- An event from two worlds whose pools agree at its addresses, and perhaps more, builds the
same transactions and leaves pools that agree there. -/
theorem step_agree {e : Event} {A : List String} (hA : ∀ a ∈ e.addrs, a ∈ A) {w₁ w₂ : World}
    (h : Agree A w₁.manager w₂.manager) :
    Agree A (w₁.step e).manager (w₂.step e).manager ∧
      e.builds w₁.manager = e.builds w₂.manager := by
  cases e with
  | syncBitcoin addr utxos => exact ⟨h.recordBtcUtxos addr utxos, rfl⟩
  | syncRunic addr runeid utxos => exact ⟨h.recordRunicUtxos addr runeid utxos, rfl⟩
  | transfer fuel req =>
    have hr := Request.transfer_agree fuel hA h
    simp only [World.step, Event.builds]
    revert hr
    generalize req.transfer fuel w₁.manager = r₁
    generalize req.transfer fuel w₂.manager = r₂
    intro hr
    cases hr with
    | returned hm =>
      rename_i r _ _
      cases r <;> exact ⟨hm, rfl⟩
    | trapped => exact ⟨h, rfl⟩
    | outOfFuel => exact ⟨h, rfl⟩

/-- Two worlds with the same pools, whose built transactions are the same up to order. -/
structure Equiv (w₁ w₂ : World) : Prop where
  manager_eq : w₁.manager = w₂.manager
  built_perm : w₁.built.Perm w₂.built

namespace Equiv

variable {w₁ w₂ w₃ : World}

theorem refl (w : World) : Equiv w w := ⟨rfl, .refl _⟩

theorem symm (h : Equiv w₁ w₂) : Equiv w₂ w₁ := ⟨h.1.symm, h.2.symm⟩

theorem trans (h₁ : Equiv w₁ w₂) (h₂ : Equiv w₂ w₃) : Equiv w₁ w₃ :=
  ⟨h₁.1.trans h₂.1, h₁.2.trans h₂.2⟩

/-- An event acts the same on equivalent worlds. -/
theorem step (h : Equiv w₁ w₂) (e : Event) : Equiv (w₁.step e) (w₂.step e) := by
  have hm : (w₁.step e).manager = (w₂.step e).manager := by
    obtain ⟨b₁, m₁⟩ := w₁
    obtain ⟨b₂, m₂⟩ := w₂
    obtain rfl : b₁ = b₂ := h.1
    cases e with
    | transfer fuel req =>
      simp only [World.step]
      split <;> rfl
    | _ => rfl
  refine ⟨hm, ?_⟩
  rw [built_step, built_step, h.1]
  exact h.2.append_right _

theorem run (h : Equiv w₁ w₂) (es : List Event) : Equiv (w₁.run es) (w₂.run es) := by
  induction es generalizing w₁ w₂ with
  | nil => exact h
  | cons e es ih => exact ih (h.step e)

end Equiv

end World

namespace World

/-- An event leaves the pools of an address it does not name. -/
theorem sameAt_step_of_not_mem {a : String} {e : Event} (ha : a ∉ e.addrs) (w : World) :
    SameAt a w.manager (w.step e).manager :=
  w.sameAt_step (Event.spares_of_not_mem ha)

/-- Two events that name no common address commute: in either order they leave the same pools
and build the same transactions. Each sees at its own addresses the pools it would see first,
and leaves the other's alone. -/
theorem step_comm (w : World) {e₁ e₂ : Event} (hd : e₁.addrs.Disjoint e₂.addrs) :
    Equiv ((w.step e₁).step e₂) ((w.step e₂).step e₁) := by
  obtain ⟨hm₁, hb₁⟩ := step_agree (fun a (ha : a ∈ e₂.addrs) => ha)
    fun a ha => sameAt_step_of_not_mem (fun ha' => hd ha' ha) w
  obtain ⟨hm₂, hb₂⟩ := step_agree (fun a (ha : a ∈ e₁.addrs) => ha)
    fun a ha => sameAt_step_of_not_mem (fun ha' => hd ha ha') w
  have hf (e e' : Event) (a : String) (ha : a ∉ e.addrs) :=
    And.intro (sameAt_step_of_not_mem ha w) (sameAt_step_of_not_mem ha (w.step e'))
  refine ⟨eq_of_diamond hd (hf e₁ e₂) (hf e₂ e₁) hm₂ hm₁, ?_⟩
  simp only [built_step, ← hb₁, ← hb₂, List.append_assoc]
  exact List.perm_append_comm.append_left _

/-- An event commutes with a run of events none of which names an address it names. -/
theorem step_run_comm (w : World) {e : Event} {fs : List Event}
    (hd : ∀ f ∈ fs, e.addrs.Disjoint f.addrs) : Equiv ((w.step e).run fs) ((w.run fs).step e) := by
  induction fs generalizing w with
  | nil => exact .refl _
  | cons f fs ih =>
    exact ((w.step_comm (hd f (List.mem_cons_self f fs))).run fs).trans
      (ih (w.step f) fun g hg => hd g (List.mem_cons_of_mem f hg))

end World

/-- Two runs of events, no event of one naming an address an event of the other names, commute:
in either order they leave the same pools and build the same transactions, up to their order.
Segments of calls on different principals can be scheduled in any order. -/
theorem independent_runs_commute (w : World) {es fs : List Event}
    (hd : ∀ e ∈ es, ∀ f ∈ fs, e.addrs.Disjoint f.addrs) :
    World.Equiv (w.run (es ++ fs)) (w.run (fs ++ es)) := by
  induction es generalizing w with
  | nil => simpa using World.Equiv.refl (w.run fs)
  | cons e es ih =>
    have h₁ := ih (w.step e) fun e' he' => hd e' (List.mem_cons_of_mem e he')
    have h₂ := (w.step_run_comm (hd e (List.mem_cons_self e es))).run es
    rw [World.run_append (w.step e) fs es] at h₁
    rw [World.run_append w fs]
    exact h₁.trans h₂

/-- `withdraw_bitcoin` of 10 000 sats from `bob`. -/
def bobSend : Request :=
  .bitcoin "bob" ⟨[2], none⟩ (Address.p2pkh (List.replicate 20 2))
    (Address.p2pkh (List.replicate 20 3)) 10000 true 1000

/-- `alice`'s and `bob`'s sends from `pairWorld` name different addresses, so either order ends
with the same pools and the same built transactions. -/
theorem aliceBobSends_commute :
    (∀ e ∈ [Event.transfer 3 aliceSend], ∀ f ∈ [Event.transfer 3 bobSend],
        e.addrs.Disjoint f.addrs) ∧
      World.Equiv (pairWorld.run ([.transfer 3 aliceSend] ++ [.transfer 3 bobSend]))
        (pairWorld.run ([.transfer 3 bobSend] ++ [.transfer 3 aliceSend])) := by
  have hd : ∀ e ∈ [Event.transfer 3 aliceSend], ∀ f ∈ [Event.transfer 3 bobSend],
      e.addrs.Disjoint f.addrs := by
    simp [aliceSend, bobSend, Event.addrs, Request.addrs]
  exact ⟨hd, independent_runs_commute pairWorld hd⟩

/-- Along every interleaving of update calls at their awaits, from a world with no call in
flight, a builder call on pools that no call names as a principal's and no synchronization
records returns what it returned before, and leaves those pools as it did: nothing done to other
principals' pools changes what it sees or does. -/
theorem interleaved_calls_keep_builds {w : World} {as : List Action} {req : Request}
    (has : ∀ x ∈ as, ∀ a ∈ req.addrs, ¬x.Names a) (fuel : ℕ) :
    LoopEnd.Agree req.addrs (req.transfer fuel w.manager)
      (req.transfer fuel ((Execution.mk w []).run as).world.manager) :=
  Request.transfer_agree fuel (fun _ => id) fun a ha =>
    (Execution.sound_nil.run (Execution.allowedRun_spares fun x hx => has x hx a ha)).1.sameAt

/-- `withdraw_bitcoin` of 1 000 sats from `carol`. -/
def carolSend : Request :=
  .bitcoin "carol" ⟨[4], none⟩ (Address.p2pkh (List.replicate 20 4))
    (Address.p2pkh (List.replicate 20 3)) 1000 true 1000

/-- No call of `aliceBobInterleaving` names `carol`, so her send ends the same way after it as
before it. -/
theorem aliceBobInterleaving_keeps_carolSend :
    (∀ x ∈ aliceBobInterleaving, ∀ a ∈ carolSend.addrs, ¬x.Names a) ∧
      LoopEnd.Agree carolSend.addrs (carolSend.transfer 3 trioWorld.manager)
        (carolSend.transfer 3
          ((Execution.mk trioWorld []).run aliceBobInterleaving).world.manager) := by
  have has : ∀ x ∈ aliceBobInterleaving, ∀ a ∈ carolSend.addrs, ¬x.Names a := by
    simp only [aliceBobInterleaving, carolSend, Request.addrs, List.mem_cons, List.mem_singleton,
      List.not_mem_nil, or_false, forall_eq]
    rintro _ (rfl | rfl | rfl) <;>
      simp [Action.Names, EntryPoint.parties, pairWithdrawal, aliceParty, bobParty]
  exact ⟨has, interleaved_calls_keep_builds has 3⟩

/-! ### Calls -/

/-- A synchronization event acts the same on pools that agree on `A`, whatever `A`. -/
theorem World.step_agree_of_syncOf {A : List String} {addr : String} {ev : Event}
    (hev : ev.SyncOf addr) {w₁ w₂ : World} (h : Agree A w₁.manager w₂.manager) :
    Agree A (w₁.step ev).manager (w₂.step ev).manager := by
  cases ev with
  | syncBitcoin a utxos => exact h.recordBtcUtxos a utxos
  | syncRunic a runeid utxos => exact h.recordRunicUtxos a runeid utxos
  | transfer => exact hev.elim

theorem World.run_agree_of_syncOf {A : List String} {addr : String} {es : List Event}
    (hes : ∀ ev ∈ es, ev.SyncOf addr) {w₁ w₂ : World} (h : Agree A w₁.manager w₂.manager) :
    Agree A (w₁.run es).manager (w₂.run es).manager := by
  induction es generalizing w₁ w₂ with
  | nil => exact h
  | cons ev es ih =>
    exact ih (fun e he => hes e (List.mem_cons_of_mem ev he))
      (World.step_agree_of_syncOf (hes ev (List.mem_cons_self ev es)) h)

/-- A synchronization of another address spares `a`. -/
theorem Event.SyncOf.spares {addr a : String} {ev : Event} (hev : ev.SyncOf addr) (h : addr ≠ a) :
    ev.Spares a := by
  cases ev with
  | syncBitcoin => exact hev ▸ h
  | syncRunic => exact hev ▸ h
  | transfer => exact hev.elim

/-- A synchronizer that records what the chain reports: at each address and target its effect is
one run of synchronization events of that address, whatever the pools. -/
def ChainSync (sync : String → ℕ → UtxoManager → UtxoManager) : Prop :=
  ∀ addr target, ∃ es, (∀ ev ∈ es, ev.SyncOf addr) ∧
    ∀ m built, (World.mk m built).run es = ⟨sync addr target m, built⟩

namespace ChainSync

variable {sync : String → ℕ → UtxoManager → UtxoManager} (hsync : ChainSync sync)
include hsync

theorem synchronizer : Synchronizer sync := fun addr target _ =>
  let ⟨es, hes, hrun⟩ := hsync addr target
  ⟨es, hes, hrun _⟩

/-- Recording what the chain reports keeps pools that agree on `A` agreeing. -/
theorem agree {A : List String} (addr : String) (target : ℕ) {n₁ n₂ : UtxoManager}
    (h : Agree A n₁ n₂) :
    Agree A (sync addr target n₁) (sync addr target n₂) := by
  obtain ⟨es, hes, hrun⟩ := hsync addr target
  have hw := World.run_agree_of_syncOf hes
    (show Agree A (World.mk n₁ []).manager (World.mk n₂ []).manager from h)
  rwa [hrun, hrun] at hw

end ChainSync

/-- A synchronizer that finds nothing new records what the chain reports. -/
theorem ChainSync.keep : ChainSync fun _ _ m => m := fun _ _ =>
  ⟨[], fun _ h => (nomatch h), fun _ _ => rfl⟩

/-- The addresses of the principals a call names. -/
def Call.addrs (c : Call) : List String := c.entry.parties.map (·.addr)

/-- What a call run alone from the pools `m` adds to the built transactions, and the pools it
leaves; `none` when a fee loop of it never returns. -/
def Call.effect (c : Call) (m : UtxoManager) : Option (List (List OutPoint) × UtxoManager) :=
  match c.entry.run c.sync c.probe c.fuel m with
  | .submitted tt m' => some ([tt.spentUtxos.map (·.outpoint)], m')
  | .trap _ m' => some ([], m')
  | .panic m' => some ([], m')
  | .outOfFuel => none

theorem World.call_eq_effect (w : World) (c : Call) :
    w.call c = (c.effect w.manager).map fun p => ⟨p.2, w.built ++ p.1⟩ := by
  unfold World.call Call.effect
  generalize c.entry.run c.sync c.probe c.fuel w.manager = o
  rcases o with _ | _ | _ | _ <;> simp [Outcome.world]

namespace Call

variable {c : Call}

/-- A call leaves the pools at every address none of its principals has. -/
theorem sameAt_of_effect (hsync : Synchronizer c.sync) {m m' : UtxoManager}
    {δ : List (List OutPoint)} (h : c.effect m = some (δ, m')) {a : String} (ha : a ∉ c.addrs) :
    SameAt a m m' := by
  have ha' : ∀ p ∈ c.entry.parties, p.addr ≠ a := fun p hp hpa =>
    ha (hpa ▸ List.mem_map_of_mem _ hp)
  have hw : (World.mk m []).call c = some ⟨m', δ⟩ := by
    rw [World.call_eq_effect, h]
    rfl
  have hs : ∀ p ∈ c.entry.parties, ∀ target m₀,
      (World.mk m₀ []).Leads (fun _ ev => ev.Spares a) ⟨c.sync p.addr target m₀, []⟩ := by
    intro p hp target m₀
    obtain ⟨es, hes, hrun⟩ := hsync p.addr target m₀
    exact ⟨es, World.allowed_of_forall fun _ ev hev => (hes ev hev).spares (ha' p hp), hrun []⟩
  have ht : ∀ v : World, (Event.transfer c.fuel (c.entry.request c.probe)).Spares a := by
    intro _ hx
    obtain ⟨p, hp, rfl⟩ := EntryPoint.exists_party_of_mem_addrs hx
    exact ha' p hp rfl
  exact (c.entry.reachedBy_run (fun _ ev => ev.Spares a) hs ht _ hw).sameAt

/-- A call from pools that agree at the addresses of its principals either ends from neither or
from both, adding the same transactions and leaving pools that agree there. -/
theorem effect_cases (hsync : ChainSync c.sync) {m₁ m₂ : UtxoManager} (h : Agree c.addrs m₁ m₂) :
    (c.effect m₁ = none ∧ c.effect m₂ = none) ∨ ∃ δ n₁ n₂, c.effect m₁ = some (δ, n₁) ∧
      c.effect m₂ = some (δ, n₂) ∧ Agree c.addrs n₁ n₂ := by
  refine AgreeResult.option_cases ?_
  have ho : Outcome.Agree c.addrs (c.entry.run c.sync c.probe c.fuel m₁)
      (c.entry.run c.sync c.probe c.fuel m₂) :=
    EntryPoint.run_agree (fun addr target _ _ hn => hsync.agree addr target hn)
      (fun p hp => List.mem_map_of_mem _ hp) h
  unfold effect
  generalize c.entry.run c.sync c.probe c.fuel m₁ = o₁ at ho ⊢
  generalize c.entry.run c.sync c.probe c.fuel m₂ = o₂ at ho ⊢
  cases ho with
  | submitted hm => exact .some ⟨rfl, hm⟩
  | trap hm => exact .some ⟨rfl, hm⟩
  | panic hm => exact .some ⟨rfl, hm⟩
  | outOfFuel => exact .none

theorem effect_eq_none_of_agree (hsync : ChainSync c.sync) {m₁ m₂ : UtxoManager}
    (h : Agree c.addrs m₁ m₂) (he : c.effect m₁ = none) : c.effect m₂ = none := by
  rcases effect_cases hsync h with ⟨-, h₂⟩ | ⟨_, _, _, h₁, -⟩
  · exact h₂
  · rw [he] at h₁
    cases h₁

theorem effect_eq_some_of_agree (hsync : ChainSync c.sync) {m₁ m₂ n₁ : UtxoManager}
    {δ : List (List OutPoint)} (h : Agree c.addrs m₁ m₂) (he : c.effect m₁ = some (δ, n₁)) :
    ∃ n₂, c.effect m₂ = some (δ, n₂) ∧ Agree c.addrs n₁ n₂ := by
  rcases effect_cases hsync h with ⟨h₁, -⟩ | ⟨_, _, n₂, h₁, h₂, hn⟩
  · rw [he] at h₁
    cases h₁
  · rw [he] at h₁
    cases h₁
    exact ⟨n₂, h₂, hn⟩

end Call

/-- Two calls, one after the other, commute when no principal of one has an address of a
principal of the other and their synchronizers record what the chain reports: in either order
both end or one of them never returns, and they leave the same pools and build the same
transactions, up to their order. -/
theorem independent_calls_commute (w : World) {c₁ c₂ : Call} (hs₁ : ChainSync c₁.sync)
    (hs₂ : ChainSync c₂.sync) (hd : c₁.addrs.Disjoint c₂.addrs) :
    Option.Rel World.Equiv (w.calls [c₁, c₂]) (w.calls [c₂, c₁]) := by
  have hk₁ : ∀ {m m' δ}, c₁.effect m = some (δ, m') → Agree c₂.addrs m m' := fun h a ha =>
    Call.sameAt_of_effect hs₁.synchronizer h fun ha₁ => hd ha₁ ha
  have hk₂ : ∀ {m m' δ}, c₂.effect m = some (δ, m') → Agree c₁.addrs m m' := fun h a ha =>
    Call.sameAt_of_effect hs₂.synchronizer h fun ha₂ => hd ha ha₂
  simp only [World.calls, Option.bind_some, World.call_eq_effect]
  rcases he₁ : c₁.effect w.manager with _ | ⟨δ₁, m₁⟩ <;>
    rcases he₂ : c₂.effect w.manager with _ | ⟨δ₂, m₂⟩ <;>
    simp only [Option.map_none', Option.none_bind, Option.map_some', Option.some_bind]
  · exact .none
  · rw [Call.effect_eq_none_of_agree hs₁ (hk₂ he₂) he₁]
    exact .none
  · rw [Call.effect_eq_none_of_agree hs₂ (hk₁ he₁) he₂]
    exact .none
  · obtain ⟨m₁₂, h₁₂, hm₂⟩ := Call.effect_eq_some_of_agree hs₂ (hk₁ he₁) he₂
    obtain ⟨m₂₁, h₂₁, hm₁⟩ := Call.effect_eq_some_of_agree hs₁ (hk₂ he₂) he₁
    rw [h₁₂, h₂₁]
    have hf₁ (a : String) (ha : a ∉ c₁.addrs) :=
      And.intro (Call.sameAt_of_effect hs₁.synchronizer he₁ ha)
        (Call.sameAt_of_effect hs₁.synchronizer h₂₁ ha)
    have hf₂ (a : String) (ha : a ∉ c₂.addrs) :=
      And.intro (Call.sameAt_of_effect hs₂.synchronizer he₂ ha)
        (Call.sameAt_of_effect hs₂.synchronizer h₁₂ ha)
    exact .some ⟨UtxoManager.eq_of_diamond hd hf₁ hf₂ hm₁ hm₂,
      by simpa only [List.append_assoc] using List.perm_append_comm.append_left w.built⟩

/-- `carol`, who holds the UTXO recorded last in `trioWorld`. -/
def carolParty : Party := ⟨"carol", Address.p2pkh (List.replicate 20 4), ⟨[4], none⟩⟩

/-- `carol`'s `withdraw_bitcoin` of 1 000 sats, as a call with a synchronizer that finds nothing
new. -/
def carolCall : Call :=
  ⟨.bitcoin carolParty (Address.p2pkh (List.replicate 20 3)) 1000 (some 1000), fun _ _ m => m,
    1000, 3⟩

/-- `bob`'s withdrawal naming `alice` and `carol`'s withdrawal commute. -/
theorem pairCall_carolCall_commute :
    ChainSync pairCall.sync ∧ ChainSync carolCall.sync ∧ pairCall.addrs.Disjoint carolCall.addrs ∧
      Option.Rel World.Equiv (trioWorld.calls [pairCall, carolCall])
        (trioWorld.calls [carolCall, pairCall]) := by
  have hd : pairCall.addrs.Disjoint carolCall.addrs := by
    simp [List.Disjoint, Call.addrs, pairCall, carolCall, pairWithdrawal, EntryPoint.parties,
      aliceParty, bobParty, carolParty]
  exact ⟨ChainSync.keep, ChainSync.keep, hd,
    independent_calls_commute trioWorld ChainSync.keep ChainSync.keep hd⟩

end OrdWallet
