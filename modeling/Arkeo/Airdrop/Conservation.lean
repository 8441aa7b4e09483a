import Arkeo.Airdrop.Spec

/-! # The airdrop pays out no more than it has

What is left in the records and what was paid out never exceed the amounts of the
genesis, and every payment is made from amounts of the genesis that no other payment
is made from (`airdrop_conserved`).  This takes two conditions, both of which the
module means to ensure and does not: a record is not handed over to itself under
another spelling of its address, and the durations of the airdrop do not add up to
less than 64 bits can hold (`airdrop_inflated`).
-/
namespace Arkeo.Airdrop
open Exec

variable {env : Env} {ctx : Context} {s s' s₀ : Store} {w w' : World} {m : Msg}

/-! ## What a message does -/

/-- The addresses of a THORChain claim are one string, or also differ in lower case. -/
def Msg.spelledApart : Msg → Bool
  | .claimThorchain _ src dst => decide (src = dst) || decide (toLower src ≠ toLower dst)
  | _ => true

/-- The amounts stay as they are. -/
structure Unchanged (env : Env) (s t : Store) : Prop where
  sound : t.Sound env
  payments : t.payments = s.payments
  amounts : ∀ k a, t.amountAt k a = s.amountAt k a

/-- A record is handed over, if the message does that. -/
inductive Carried (env : Env) (s t : Store) : Option (Key × Key) → Prop
  | stays (h : Unchanged env s t) : Carried env s t none
  | handed (src dst : Key) (h : HandsOver env src dst s t) : Carried env s t (some (src, dst))

theorem Carried.payments {o : Option (Key × Key)} (h : Carried env s s' o) :
    s'.payments = s.payments := by
  cases h with
  | stays h => exact h.payments
  | handed src dst h => exact h.payments

theorem Unchanged.refl (hs : s.Sound env) : Unchanged env s s := ⟨hs, rfl, fun _ _ => rfl⟩

theorem hook_outcome (hs : s.Sound env) (hp : ctx.params.NoUnderflow) {address : String}
    {a : Action} {u : Unit} (h : claimLogged env ctx address a s = .ok u s') :
    s' = s ∨ PaysOut env (keyOf .arkeo address) a s s' := by
  unfold claimLogged at h
  rcases logged_ok.mp h with h | ⟨e, h⟩
  · obtain ⟨coin, t, hclaim, h⟩ := bind_ok.mp h
    obtain ⟨-, rfl⟩ := pure_ok.mp h
    exact pays_or_not hs hp hclaim
  · -- nothing was written before the error
    rcases bind_error.mp h with h | ⟨coin, t, -, h⟩
    · rcases claimCoinsForAction_cases hs hp address a with he | ⟨coin, t, ht, -⟩
      · rw [h] at he
        exact .inl he
      · rw [h] at ht
        cases ht
    · cases h

theorem endBlocker_unchanged (hs : s.Sound env) {u : Unit} (h : endBlocker ctx s = .ok u s') :
    Unchanged env s s' := by
  unfold endBlocker at h
  rw [reading_bind] at h
  split at h
  · obtain ⟨_, t, hmove, h⟩ := bind_ok.mp h
    obtain rfl := writing_ok.mp h
    obtain ⟨-, hmove⟩ := failIf_bind_ok.mp hmove
    rw [reading_bind] at hmove
    split at hmove
    · obtain ⟨-, rfl⟩ := pure_ok.mp hmove
      exact ⟨hs, rfl, fun _ _ => rfl⟩
    · obtain rfl := writing_ok.mp hmove
      exact ⟨hs, rfl, fun _ _ => rfl⟩
  · obtain ⟨-, rfl⟩ := pure_ok.mp h
    exact .refl hs

/-- The handler of a message runs once its creator's address is valid. -/
theorem signedBy_ok {creator : String} {x : Keeper Unit} {u : Unit}
    (h : signedBy env creator x s = .ok u s') : x s = .ok () s' := (failIf_bind_ok.mp h).2

/-- **A message, inverted.** -/
theorem handler_outcome (hs : s.Sound env) (hp : ctx.params.NoUnderflow)
    (hm : m.spelledApart = true) (h : committed (handler env ctx m) s = some s') :
    ∃ t, Carried env s t m.handsOver ∧ (s' = t ∨ ∃ k a, PaysOut env k a t s') := by
  obtain ⟨u, h⟩ := committed_some.mp h
  cases m with
  | claimArkeo creator =>
    obtain ⟨resp, t, hclaim, hend⟩ := bind_ok.mp (signedBy_ok h)
    obtain ⟨-, rfl⟩ := pure_ok.mp hend
    unfold claimArkeo at hclaim
    rw [reading_bind] at hclaim
    obtain ⟨-, h₁⟩ := failIf_bind_ok.mp hclaim
    obtain ⟨zero, -, h₂⟩ := ofOption_bind_ok.mp h₁
    obtain ⟨-, h₃⟩ := failIf_bind_ok.mp h₂
    obtain ⟨coin, t', hpay, h₄⟩ := bind_ok.mp h₃
    obtain ⟨amount, -, h₅⟩ := ofOption_bind_ok.mp h₄
    obtain ⟨-, rfl⟩ := pure_ok.mp h₅
    refine ⟨s, .stays (.refl hs), ?_⟩
    rcases pays_or_not hs hp hpay with he | hpay
    · exact .inl he
    · exact .inr ⟨_, _, hpay⟩
  | claimEth creator ethAddress signature =>
    obtain ⟨resp, t, hclaim, hend⟩ := bind_ok.mp (signedBy_ok h)
    obtain ⟨-, rfl⟩ := pure_ok.mp hend
    obtain ⟨t', hover, hpay⟩ := claimEth_outcome hs hp hclaim
    exact ⟨t', .handed _ _ hover, hpay.imp_right fun hpay => ⟨_, _, hpay⟩⟩
  | claimThorchain creator src dst =>
    obtain ⟨resp, t, hclaim, hend⟩ := bind_ok.mp (signedBy_ok h)
    obtain ⟨-, rfl⟩ := pure_ok.mp hend
    have hne : keyOf .arkeo src ≠ keyOf .arkeo dst := by
      intro hkey
      have hlower : toLower src = toLower dst := congrArg Prod.snd hkey
      obtain ⟨hspelled, -⟩ := failIf_bind_ok.mp hclaim
      simp only [Msg.spelledApart, hlower, ne_eq, not_true_eq_false, decide_false, Bool.or_false]
        at hm
      rw [hspelled] at hm
      cases hm
    exact ⟨t, .handed _ _ (claimThorchain_outcome hs hne hclaim), .inl rfl⟩
  | transferClaim creator dst =>
    obtain ⟨t, hover, hpay⟩ := transferClaim_outcome hs hp (signedBy_ok h)
    exact ⟨t, .handed _ _ hover, hpay.imp_right fun hpay => ⟨_, _, hpay⟩⟩
  | vote voter =>
    refine ⟨s, .stays (.refl hs), ?_⟩
    exact (hook_outcome hs hp h).imp_right fun hpay => ⟨_, _, hpay⟩
  | delegate delegator =>
    refine ⟨s, .stays (.refl hs), ?_⟩
    exact (hook_outcome hs hp h).imp_right fun hpay => ⟨_, _, hpay⟩
  | nextBlock time => exact ⟨s', .stays (endBlocker_unchanged hs h), .inl rfl⟩

/-! ## Every amount is backed -/

/-- What is in a record or was paid is covered by the amounts of the genesis that are
there now. -/
structure Backed (env : Env) (s₀ : Store) (w : World) : Prop where
  sound : w.store.Sound env
  slots : ∀ k a, w.store.amountAt k a ≤ w.worth s₀ (.slot k a)
  payments : ∀ n pay, w.store.payments[n]? = some pay →
    pay.coin.value ≤ w.worth s₀ (.payment n)

theorem worth_nonneg (h₀ : s₀.Sound env) (w : World) (p : Place) : 0 ≤ w.worth s₀ p :=
  Tokens.worth_nonneg (fun t _ => h₀.amountAt_nonneg t.1 t.2) w.place p

theorem Place.handOver_self (k : Key) (p : Place) : p.handOver k k = p := by
  cases p with
  | payment n => rfl
  | slot k' a =>
    rw [handOver]
    split
    · rename_i hk
      rw [hk]
    · rfl

/-- Nothing but the record itself and the one handed over comes to a record. -/
theorem Place.handOver_eq_slot {src dst k : Key} {a : Action} (hne : src ≠ dst) (p : Place) :
    p.handOver src dst = .slot k a ↔
      (p = .slot k a ∧ k ≠ src) ∨ (p = .slot src a ∧ k = dst) := by
  cases p with
  | payment n => simp [handOver]
  | slot k' a' =>
    rw [handOver]
    split
    · rename_i hk
      subst hk
      constructor
      · rintro ⟨⟩
        exact .inr ⟨rfl, rfl⟩
      · rintro (⟨⟨⟩, h⟩ | ⟨⟨⟩, rfl⟩)
        · exact absurd rfl h
        · rfl
    · rename_i hk
      constructor
      · rintro ⟨⟩
        exact .inl ⟨rfl, hk⟩
      · rintro (⟨⟨⟩, -⟩ | ⟨⟨⟩, -⟩)
        · rfl
        · exact absurd rfl hk

theorem Place.handOver_eq_payment {src dst : Key} {n : ℕ} (p : Place) :
    p.handOver src dst = .payment n ↔ p = .payment n := by
  cases p with
  | payment m => rfl
  | slot k a =>
    rw [handOver]
    split <;> simp

theorem Backed.carry (h₀ : s₀.Sound env) (h : Backed env s₀ w) {t : Store}
    (hc : Carried env w.store t m.handsOver) :
    Backed env s₀ { w with store := t, place := fun x => m.carry (w.place x) } := by
  unfold Msg.carry
  generalize m.handsOver = o at hc
  cases hc with
  | stays hu =>
    refine ⟨hu.sound, ?_, ?_⟩
    · intro k a
      rw [hu.amounts]
      exact h.slots k a
    · intro n pay hpay
      rw [hu.payments] at hpay
      exact h.payments n pay hpay
  | handed src dst hover =>
    by_cases hne : src = dst
    · subst hne
      simp only [Place.handOver_self]
      refine ⟨hover.sound, ?_, ?_⟩
      · intro k a
        by_cases hk : k = src
        · rw [hk]
          exact Int.le_trans (hover.same rfl a) (h.slots src a)
        · rw [hover.others k hk hk]
          exact h.slots k a
      · intro n pay hpay
        rw [hover.payments] at hpay
        exact h.payments n pay hpay
    · refine ⟨hover.sound, ?_, ?_⟩
      · intro k a
        by_cases hdst : k = dst
        · subst hdst
          have hworth : World.worth s₀ { w with
                store := t, place := fun x => (w.place x).handOver src k } (.slot k a) =
              w.worth s₀ (.slot k a) + w.worth s₀ (.slot src a) := by
            refine Tokens.worth_of_two (f := Place.handOver src k) ?_ ?_
            · rintro ⟨⟩
              exact hne rfl
            · intro p
              rw [Place.handOver_eq_slot hne]
              simp [Ne.symm hne]
          rw [hworth]
          show t.amountAt k a ≤ _
          have := hover.received hne a
          have := h.slots k a
          have := h.slots src a
          omega
        · by_cases hsrc : k = src
          · subst hsrc
            rw [hover.given hne]
            exact worth_nonneg h₀ _ _
          · rw [hover.others k hsrc hdst]
            refine Int.le_trans (h.slots k a) (Int.le_of_eq (Eq.symm ?_))
            refine Tokens.worth_of_one (f := Place.handOver src dst) ?_
            intro p
            rw [Place.handOver_eq_slot hne]
            simp [hsrc, hdst]
      · intro n pay hpay
        rw [hover.payments] at hpay
        refine Int.le_trans (h.payments n pay hpay) (Int.le_of_eq (Eq.symm ?_))
        exact Tokens.worth_of_one (f := Place.handOver src dst) fun p => p.handOver_eq_payment

theorem Place.paid_eq_slot {k k' : Key} {a a' : Action} {n : ℕ} (hne : (k', a') ≠ (k, a))
    (p : Place) : p.paid k a n = .slot k' a' ↔ p = .slot k' a' := by
  unfold paid
  split
  · rename_i hp
    subst hp
    constructor
    · rintro ⟨⟩
    · rintro ⟨⟩
      exact absurd rfl hne
  · rfl

theorem Place.paid_eq_payment {k : Key} {a : Action} {n m : ℕ} (hne : m ≠ n) (p : Place) :
    p.paid k a n = .payment m ↔ p = .payment m := by
  unfold paid
  split
  · rename_i hp
    subst hp
    constructor
    · rintro ⟨⟩
      exact absurd rfl hne
    · rintro ⟨⟩
  · rfl

theorem Place.paid_eq_new {k : Key} {a : Action} {n : ℕ} (p : Place) :
    p.paid k a n = .payment n ↔ p = .slot k a ∨ p = .payment n := by
  unfold paid
  split
  · rename_i hp
    simp [hp]
  · rename_i hp
    simp [hp]

theorem Backed.pay (h₀ : s₀.Sound env) (h : Backed env s₀ w) {k : Key} {a : Action}
    (hpay : PaysOut env k a w.store s') :
    Backed env s₀ { w with
      store := s', place := fun x => (w.place x).paid k a w.store.payments.length } := by
  obtain ⟨pay, hpays, -, -, hle⟩ := hpay.payment
  refine ⟨hpay.sound, ?_, ?_⟩
  · intro k' a'
    by_cases hka : (k', a') = (k, a)
    · cases hka
      rw [hpay.gone]
      exact worth_nonneg h₀ _ _
    · rw [hpay.others k' a' hka]
      refine Int.le_trans (h.slots k' a') (Int.le_of_eq (Eq.symm ?_))
      exact Tokens.worth_of_one (f := Place.paid k a w.store.payments.length)
        fun p => p.paid_eq_slot hka
  · intro n pay' hn
    simp only [hpays] at hn
    by_cases hnew : n = w.store.payments.length
    · subst hnew
      rw [List.getElem?_concat_length] at hn
      cases hn
      have hworth : World.worth s₀ { w with
            store := s', place := fun x => (w.place x).paid k a w.store.payments.length }
            (.payment w.store.payments.length) =
          w.worth s₀ (.slot k a) + w.worth s₀ (.payment w.store.payments.length) :=
        Tokens.worth_of_two (f := Place.paid k a w.store.payments.length) (by simp)
          fun p => p.paid_eq_new
      rw [hworth]
      have := h.slots k a
      have := worth_nonneg h₀ w (.payment w.store.payments.length)
      omega
    · have hold : w.store.payments[n]? = some pay' := by
        rw [List.getElem?_append] at hn
        split at hn
        · exact hn
        · rename_i hge
          rw [List.getElem?_singleton] at hn
          split at hn
          · omega
          · cases hn
      refine Int.le_trans (h.payments n pay' hold) (Int.le_of_eq (Eq.symm ?_))
      exact Tokens.worth_of_one (f := Place.paid k a w.store.payments.length)
        fun p => p.paid_eq_payment hnew

/-- **A step, inverted.** -/
theorem step_cases (hs : step env w m = some w') :
    (∃ time s, m = .nextBlock time ∧ committed (handler env w.ctx m) w.store = some s ∧
      w' = { w with store := s, ctx := { w.ctx with blockTime := time } }) ∨
    (∃ s, committed (handler env w.ctx m) w.store = some s ∧ w' = w.after m s) ∨ w' = w := by
  unfold step at hs
  cases hc : committed (handler env w.ctx m) w.store with
  | none =>
    rw [hc] at hs
    cases m with
    | nextBlock time => cases hs
    | _ =>
      cases hs
      exact .inr (.inr rfl)
  | some s =>
    rw [hc] at hs
    cases m with
    | nextBlock time =>
      simp only at hs
      split at hs
      · cases hs
        exact .inl ⟨time, s, rfl, rfl, rfl⟩
      · cases hs
    | _ =>
      cases hs
      exact .inr (.inl ⟨s, rfl, rfl⟩)

/-- The parameters do not change. -/
theorem step_params (hs : step env w m = some w') : w'.ctx.params = w.ctx.params := by
  rcases step_cases hs with ⟨time, s, -, -, rfl⟩ | ⟨s, -, rfl⟩ | rfl <;> rfl

/-- **One step** keeps every amount backed. -/
theorem step_backed (h₀ : s₀.Sound env) (h : Backed env s₀ w) (hp : w.ctx.params.NoUnderflow)
    (hm : m.spelledApart = true) (hs : step env w m = some w') : Backed env s₀ w' := by
  rcases step_cases hs with ⟨time, s, rfl, hc, rfl⟩ | ⟨s, hc, rfl⟩ | rfl
  · obtain ⟨u, hend⟩ := committed_some.mp hc
    have hu := endBlocker_unchanged h.sound hend
    refine ⟨hu.sound, ?_, ?_⟩
    · intro k a
      rw [hu.amounts]
      exact h.slots k a
    · intro n pay hpay
      rw [hu.payments] at hpay
      exact h.payments n pay hpay
  · obtain ⟨t, hcarried, hend⟩ := handler_outcome h.sound hp hm hc
    have hb := h.carry h₀ hcarried
    rcases hend with rfl | ⟨k, a, hpay⟩
    · have hafter : w.after m s =
          { w with store := s, place := fun x => m.carry (w.place x) } := by
        unfold World.after
        rw [hcarried.payments, List.drop_length]
        rfl
      rw [hafter]
      exact hb
    · obtain ⟨pay, hpays, hk, ha, -⟩ := hpay.payment
      have hafter : w.after m s =
          { w with
            store := s
            place := fun x => (m.carry (w.place x)).paid k a t.payments.length } := by
        unfold World.after
        rw [hpays, hcarried.payments, List.drop_left, ← hk, ← ha]
        rfl
      rw [hafter]
      exact hb.pay h₀ hpay
  · exact h

theorem genesis_backed (h₀ : s₀.Sound env) (hpay : s₀.payments = []) (ctx : Context) :
    Backed env s₀ (genesis s₀ ctx) := by
  refine ⟨h₀, ?_, ?_⟩
  · intro k a
    show s₀.amountAt k a ≤ _
    cases hl : s₀.records.lookup k with
    | none =>
      have hzero : s₀.amountAt k a = 0 := by rw [Store.amountAt, hl, Option.elim_none]
      rw [hzero]
      exact worth_nonneg h₀ _ _
    | some r =>
      have hmem : (k, a) ∈ s₀.slots := by
        refine List.mem_flatMap.mpr ⟨k, ?_, List.mem_map.mpr ⟨a, by cases a <;> decide, rfl⟩⟩
        exact AList.mem_keys.mp (AList.lookup_isSome.mp (by rw [hl]; rfl))
      exact Tokens.weight_le_worth (fun t _ => h₀.amountAt_nonneg t.1 t.2) hmem
  · intro n pay hn
    have hn : s₀.payments[n]? = some pay := hn
    rw [hpay] at hn
    cases hn

/-! ## The sums -/

theorem Store.slots_nodup (s : Store) : s.slots.Nodup := by
  refine List.nodup_flatMap.mpr ⟨?_, ?_⟩
  · intro k _
    refine List.Nodup.map ?_ (by decide)
    rintro a a' ⟨⟩
    rfl
  · refine List.Pairwise.imp ?_ s.records.nodupKeys
    intro k k' hne
    show List.Disjoint _ _
    intro t ht ht'
    obtain ⟨a, -, rfl⟩ := List.mem_map.mp ht
    obtain ⟨a', -, he⟩ := List.mem_map.mp ht'
    exact hne (congrArg Prod.fst he).symm

/-- What is backed adds up to no more than the genesis. -/
theorem Backed.total_le (h₀ : s₀.Sound env) (h : Backed env s₀ w) :
    w.store.total + w.store.paidOut ≤ s₀.total := by
  let places : List Place := w.store.slots.map (fun t => .slot t.1 t.2) ++
    (List.range w.store.payments.length).map .payment
  have hnodup : places.Nodup := by
    refine List.Nodup.append ?_ ?_ ?_
    · refine w.store.slots_nodup.map ?_
      rintro ⟨k, a⟩ ⟨k', a'⟩ ⟨⟩
      rfl
    · refine List.nodup_range.map ?_
      rintro n m ⟨⟩
      rfl
    · intro p hp hp'
      obtain ⟨t, -, rfl⟩ := List.mem_map.mp hp
      obtain ⟨n, -, he⟩ := List.mem_map.mp hp'
      cases he
  have hworth : (places.map (w.worth s₀)).sum ≤ s₀.total :=
    Tokens.sum_worth_le (fun t _ => h₀.amountAt_nonneg t.1 t.2) hnodup
  have hslots : w.store.total ≤
      ((w.store.slots.map fun t => Place.slot t.1 t.2).map (w.worth s₀)).sum := by
    rw [List.map_map]
    exact List.sum_le_sum fun t _ => h.slots t.1 t.2
  have hpayments : w.store.paidOut ≤
      (((List.range w.store.payments.length).map Place.payment).map (w.worth s₀)).sum := by
    refine List.Forall₂.sum_le_sum (List.forall₂_iff_get.mpr ⟨by simp, ?_⟩)
    intro n hn _
    have hlt : n < w.store.payments.length := by simpa using hn
    simpa using h.payments n _ (List.getElem?_eq_getElem hlt)
  rw [List.map_append, List.sum_append] at hworth
  omega

/-- **Airdrop conservation.**  From every genesis without negative amounts, in every run
in which no record is handed over to itself under another spelling: what is left and
what was paid out do not exceed the amounts of the genesis, and each payment is
covered by amounts of the genesis that were paid out in this payment and in no
other. -/
theorem airdrop_conserved (hp : ctx.params.NoUnderflow) {bank : Ledger Holder String}
    {records : List ClaimRecord} (hn : ∀ r ∈ records, ∀ a, 0 ≤ (r.amount a).value)
    (hgen : initGenesis env bank records = some s₀) {msgs : List Msg}
    (hm : ∀ m ∈ msgs, m.spelledApart = true)
    (hrun : Runs.run (step env) (genesis s₀ ctx) msgs = some w) :
    w.store.total + w.store.paidOut ≤ s₀.total ∧
      ∀ n pay, w.store.payments[n]? = some pay → pay.coin.value ≤
        ((s₀.slots.filter fun t => w.place t = .payment n).map
          fun t => s₀.amountAt t.1 t.2).sum := by
  obtain ⟨h₀, hpay⟩ := initGenesis_sound hn hgen
  have hstep : ∀ w m w', (Backed env s₀ w ∧ w.ctx.params = ctx.params) → m.spelledApart = true →
      step env w m = some w' → Backed env s₀ w' ∧ w'.ctx.params = ctx.params := by
    rintro w m w' ⟨hb, hctx⟩ hm hs
    exact ⟨step_backed h₀ hb (by rw [hctx]; exact hp) hm hs, (step_params hs).trans hctx⟩
  obtain ⟨hb, -⟩ := Runs.run_induct_of_guarded hstep ⟨genesis_backed h₀ hpay ctx, rfl⟩
    (Runs.guarded_of_forall hm _) hrun
  refine ⟨hb.total_le h₀, ?_⟩
  intro n pay hn
  have hworth := hb.payments n pay hn
  rw [World.worth, Tokens.worth_eq_sum_filter] at hworth
  exact hworth

/-- Of 18 coins, 7 are paid out to the friend and 3 are left. -/
theorem friend_paid_half : ∃ s₀ w, initGenesis Sample.env Sample.bank Sample.records = some s₀ ∧
    Runs.run (step Sample.env) (genesis s₀ Sample.ctx) Sample.msgs = some w ∧
    w.store.total = 3 ∧ w.store.paidOut = 7 ∧ s₀.total = 18 ∧
    w.store.total + w.store.paidOut ≤ s₀.total := by
  obtain ⟨s₀, w, hs, hw, hx, hy, hz⟩ := Sample.sums_eq
    (show Sample.sums Sample.ctx Sample.msgs = some (3, 7, 18) by decide +kernel)
  refine ⟨s₀, w, hs, hw, hx, hy, hz, ?_⟩
  refine (airdrop_conserved (by decide) ?_ hs (by decide +kernel) hw).1
  intro r hr a
  rw [List.mem_singleton.mp hr]
  cases a <;> decide

/-- **The airdrop inflated.**  Handed over to itself in capitals, a record doubles; and
with durations that add up to a positive number by wrapping around, a claim is paid
threefold. -/
theorem airdrop_inflated :
    (∃ s₀ w, initGenesis Sample.env Sample.bank Sample.records = some s₀ ∧
      Runs.run (step Sample.env) (genesis s₀ Sample.ctx)
        [.claimThorchain thorchainClaimServer Sample.holder Sample.HOLDER] = some w ∧
      ¬w.store.total + w.store.paidOut ≤ s₀.total) ∧
    ∃ s₀ w, initGenesis Sample.env Sample.bank Sample.records = some s₀ ∧
      Runs.run (step Sample.env) (genesis s₀ Sample.longPast) [.claimArkeo Sample.holder] = some w ∧
      ¬w.store.total + w.store.paidOut ≤ s₀.total := by
  refine ⟨?_, ?_⟩
  · obtain ⟨s₀, w, hs, hw, hx, hy, hz⟩ := Sample.sums_eq
      (show Sample.sums Sample.ctx [.claimThorchain thorchainClaimServer Sample.holder Sample.HOLDER]
        = some (36, 0, 18) by decide +kernel)
    exact ⟨s₀, w, hs, hw, by rw [hx, hy, hz]; decide⟩
  · obtain ⟨s₀, w, hs, hw, hx, hy, hz⟩ := Sample.sums_eq
      (show Sample.sums Sample.longPast [.claimArkeo Sample.holder] = some (8, 30, 18) by
        decide +kernel)
    exact ⟨s₀, w, hs, hw, by rw [hx, hy, hz]; decide⟩

end Arkeo.Airdrop
