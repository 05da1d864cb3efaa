import Lending.Proofs.Funding
import Lending.Proofs.Stakes
import Lending.Proofs.Unwinding

/-!
# A stake moves by what is supplied or redeemed

Whoever redeems shares is paid for them out of what all his shares were worth, and whoever mints
adds what he pays to it. Both the payment and what is left are rounded down, so after a redemption
he has what he had, or one unit less (`Sound.value_of_burn`). After a mint he has no more than what
he had and what he paid, the fee included (`Sound.value_of_mint_le`).

A minter who holds shares already gets part of his fee back, and part of what is lost to rounding:
he owns part of the liquidity that both go to. So nothing is said of fees in the other direction,
and what is lost on the amount itself is at most the price of one share, as shares are whole
(`Sound.add_le_value_of_mint`).

No price is needed for the upper bound. An empty pool mints one share for a unit, and a pool with
ownerless liquidity mints none, so that what it is paid is nobody's. In neither of them has anybody
more than he paid, and so nobody gains by minting and redeeming, whichever part he redeems.
-/

set_option autoImplicit false

namespace Lending

/-- The price of one share, rounded up to a whole unit. -/
def Pool.sharePrice (pool : Pool) : Nat :=
  (pool.liquidity.toNat + (pool.shares.toNat - 1)) / pool.shares.toNat

namespace Ledger

open Quantity

variable {l after : Ledger} {caller holder : Key} {r : Receipt}
variable {amount minted shares redeemed before now : Amount} {paid : Nat}

/-- A holder supplies liquidity and is given so many shares. Read from the ledger after to the one
before, he redeems them. -/
structure Supplies (l after : Ledger) (holder : Key) (given paid : Nat) : Prop where
  liquidity : after.pool.liquidity.toNat = l.pool.liquidity.toNat + paid
  shares : after.pool.shares.toNat = l.pool.shares.toNat + given
  own : (after.account holder).shares.toNat = (l.account holder).shares.toNat + given

/-! ## Redemptions -/

theorem Acts.supplies_of_burn (h : l.Acts caller (.burn shares) r after) :
    ∃ redeemed : Amount, r = .burned shares redeemed ∧
      l.pool.liquidityFor shares = .ok redeemed ∧
      after.Supplies l caller shares.toNat redeemed.toNat := by
  have hliquidity := h.settles.liquidity
  have hshares := h.settles.shares
  have hown := (h.settles_holder trivial).shares
  obtain ⟨q, hq, -⟩ := h.exists_trade trivial
  cases hq with
  | burn hburn =>
    simp only [Receipt.turnover, Nat.add_zero] at hliquidity hshares hown
    exact ⟨_, rfl, (Position.burn_eq_ok_iff.mp hburn).1, hliquidity.symm, hshares.symm,
      hown.symm⟩

/-- Who redeems shares has as much less, or one unit less than that. -/
theorem Sound.value_of_burn (hafter : after.Sound)
    (hleaves : after.Supplies l holder shares.toNat redeemed.toNat)
    (hquote : l.pool.liquidityFor shares = .ok redeemed)
    (hbefore : l.shareValue holder = .ok before) (hnow : after.shareValue holder = .ok now) :
    now.toNat + redeemed.toNat ≤ before.toNat ∧
      before.toNat ≤ now.toNat + redeemed.toNat + 1 := by
  have hpart := le_def.mp (hafter.balanced.within holder).shares_le
  rcases Pool.liquidityFor_cases hnow with ⟨hnone, rfl⟩ | ⟨hpos, hrounds'⟩
  · -- The last shares are gone, and they were all his: he had what he redeemed them for.
    have hleft : (after.account holder).shares.toNat = 0 := Nat.le_zero.mp (hnone ▸ hpart)
    have hall : (l.account holder).shares = shares := by
      apply Quantity.ext
      rw [hleaves.own, hleft, Nat.zero_add]
    rw [shareValue, hall, hquote] at hbefore
    cases hbefore
    rw [toNat_zero]
    omega
  · have hsome : 0 < l.pool.shares.toNat := by
      rw [hleaves.shares]
      exact Nat.add_pos_left hpos _
    have hrounds := quotient_of_pos hsome (Pool.liquidityFor_cases hbefore)
    have hprice := quotient_of_pos hsome (Pool.liquidityFor_cases hquote)
    rw [hleaves.liquidity, hleaves.shares] at hprice hrounds
    rw [hleaves.own] at hrounds
    exact hprice.left_bracket hpart hrounds hrounds'

/-! ## Mints -/

theorem Acts.supplies_of_mint (h : l.Acts caller (.mint amount) r after) :
    ∃ minted fee : Amount, r = .minted amount minted fee ∧
      l.pool.sharesFor amount = .ok minted ∧
      l.Supplies after caller minted.toNat (amount.toNat + fee.toNat) := by
  obtain ⟨minted, fee, -, rfl, hquote, hliquidity, -⟩ := exists_of_mint h
  have hshares := h.settles.shares
  have hown := (h.settles_holder trivial).shares
  simp only [Receipt.turnover, Nat.add_zero] at hshares hown
  exact ⟨minted, fee, rfl, hquote, hliquidity, hshares, hown⟩

/-- New shares cost at least their price, and a fee only adds to what they cost. -/
theorem mul_le_of_minted (hquote : l.pool.sharesFor amount = .ok minted)
    (hmore : amount.toNat ≤ paid) :
    minted.toNat * l.pool.liquidity.toNat ≤ paid * l.pool.shares.toNat :=
  Nat.le_trans (Pool.mul_le_of_sharesFor hquote) (Nat.mul_le_mul_right _ hmore)

theorem Sound.value_of_mint_le (hl : l.Sound) (hafter : after.Sound)
    (hjoins : l.Supplies after holder minted.toNat paid)
    (hprice : minted.toNat * l.pool.liquidity.toNat ≤ paid * l.pool.shares.toNat)
    (hbefore : l.shareValue holder = .ok before) (hnow : after.shareValue holder = .ok now) :
    now.toNat ≤ before.toNat + paid := by
  have hpart := le_def.mp (hl.balanced.within holder).shares_le
  have hpart' := le_def.mp (hafter.balanced.within holder).shares_le
  rcases Pool.liquidityFor_cases hnow with ⟨-, rfl⟩ | ⟨hpos', hrounds'⟩
  · exact Nat.zero_le _
  · rcases Pool.liquidityFor_cases hbefore with ⟨hnone, rfl⟩ | ⟨hpos, hrounds⟩
    · -- Nobody had shares. If there are some now there was no liquidity, and all of it is new.
      have hgiven : 0 < minted.toNat := by
        rw [hjoins.shares, hnone, Nat.zero_add] at hpos'
        exact hpos'
      have hempty : l.pool.liquidity.toNat = 0 := by
        rw [hnone, Nat.mul_zero] at hprice
        exact (Nat.mul_eq_zero.mp (Nat.le_zero.mp hprice)).resolve_left (Nat.ne_of_gt hgiven)
      have hwhole := hrounds'.le_whole hpos' hpart'
      rw [hjoins.liquidity, hempty] at hwhole
      rw [toNat_zero]
      exact hwhole
    · rw [hjoins.liquidity, hjoins.shares, hjoins.own] at hrounds'
      exact hrounds.le_add_of_joined (p := 0) hpart hrounds' (by rwa [Nat.zero_mul])

theorem Sound.add_le_value_of_mint (hl : l.Sound)
    (hjoins : l.Supplies after holder minted.toNat paid) (hmore : amount.toNat ≤ paid)
    (hpos : 0 < l.pool.shares.toNat) (hliquid : 0 < l.pool.liquidity.toNat)
    (hquote : l.pool.sharesFor amount = .ok minted)
    (hbefore : l.shareValue holder = .ok before) (hnow : after.shareValue holder = .ok now) :
    before.toNat + amount.toNat ≤ now.toNat + l.pool.sharePrice := by
  have hpart := le_def.mp (hl.balanced.within holder).shares_le
  have hpos' : 0 < after.pool.shares.toNat := by
    rw [hjoins.shares]
    exact Nat.add_pos_left hpos _
  have hrounds := quotient_of_pos hpos (Pool.liquidityFor_cases hbefore)
  have hrounds' := quotient_of_pos hpos' (Pool.liquidityFor_cases hnow)
  have hbought := quotient_of_pos hliquid (Pool.sharesFor_cases hquote)
  rw [hjoins.liquidity, hjoins.shares, hjoins.own] at hrounds'
  exact hbought.add_le_of_bought hpart hmore (le_ceil_mul hpos) hrounds hrounds'

/-- Of what was just minted, no part is redeemed for more than was paid. -/
theorem Supplies.le_of_redeemed (hjoins : l.Supplies after holder minted.toNat paid)
    (hprice : minted.toNat * l.pool.liquidity.toNat ≤ paid * l.pool.shares.toNat)
    (hpart : shares ≤ minted) (hquote : after.pool.liquidityFor shares = .ok redeemed) :
    redeemed.toNat ≤ paid := by
  rcases Pool.liquidityFor_cases hquote with ⟨-, rfl⟩ | ⟨hpos, hrounds⟩
  · exact Nat.zero_le _
  · refine Nat.le_of_mul_le_mul_right ?_ hpos
    calc redeemed.toNat * after.pool.shares.toNat
        ≤ shares.toNat * after.pool.liquidity.toNat := hrounds.le
      _ ≤ minted.toNat * after.pool.liquidity.toNat := Nat.mul_le_mul_right _ hpart
      _ = minted.toNat * l.pool.liquidity.toNat + minted.toNat * paid := by
        rw [hjoins.liquidity, Nat.mul_add]
      _ ≤ paid * l.pool.shares.toNat + minted.toNat * paid := Nat.add_le_add_right hprice _
      _ = paid * after.pool.shares.toNat := by
        rw [hjoins.shares, Nat.mul_add, Nat.mul_comm paid minted.toNat]

/-! ## Requests -/

/-- A burn before which no interest is charged pays out of what the burner's shares are worth. -/
theorem Sound.exists_of_free_burn (hl : l.Sound) {request : Request} {e : Effect}
    (h : l.attempt request = .ok e) (hburn : request.action = .burn shares)
    (hfree : e.interest = 0) (hbefore : l.shareValue request.caller = .ok before) :
    ∃ redeemed left : Amount, e.receipt = .burned shares redeemed ∧
      l.pool.liquidityFor shares = .ok redeemed ∧
      e.ledger.shareValue request.caller = .ok left ∧
      left.toNat + redeemed.toNat ≤ before.toNat := by
  obtain ⟨time, charged, acted, -, hcharged, hacts, hstamp⟩ := exists_of_attempt h
  rw [hfree, accrue_zero] at hcharged
  cases hcharged
  have hacted := hl.act hacts
  rw [hburn] at hacts
  obtain ⟨redeemed, hreceipt, hquote, hleaves⟩ := hacts.supplies_of_burn
  obtain ⟨left, hleft⟩ := hacted.exists_shareValue request.caller
  refine ⟨redeemed, left, hreceipt, hquote, ?_,
    (hacted.value_of_burn hleaves hquote hbefore hleft).1⟩
  rw [hstamp]
  exact hleft

/-- On a ledger that passes its audit, a burn lowers what its holder's shares are worth by what it
pays, or by one more. A mint raises it by no more than the amount and the fee, and where there are
shares and liquidity by no less than the amount less the price of a share. Both are counted from the
charge of the interest.

A burn that follows the mint without interest leaves the holder with no more, payment included, than
he had and paid in. If it burns only what was minted, it pays no more than was paid in. -/
theorem stakes_move_by_what_is_supplied (haudit : l.audit = .ok ()) {request : Request} {e : Effect}
    (h : l.attempt request = .ok e) :
    ∃ (charged : Ledger) (before after : Amount), l.accrue e.interest = .ok charged ∧
      charged.shareValue request.caller = .ok before ∧
      e.ledger.shareValue request.caller = .ok after ∧
      (∀ shares, request.action = .burn shares →
        ∃ redeemed : Amount, e.receipt = .burned shares redeemed ∧
          after.toNat + redeemed.toNat ≤ before.toNat ∧
          before.toNat ≤ after.toNat + redeemed.toNat + 1) ∧
      ∀ amount, request.action = .mint amount →
        ∃ minted fee : Amount, e.receipt = .minted amount minted fee ∧
          after.toNat ≤ before.toNat + amount.toNat + fee.toNat ∧
          (0 < charged.pool.shares.toNat → 0 < charged.pool.liquidity.toNat →
            before.toNat + amount.toNat ≤ after.toNat + charged.pool.sharePrice) ∧
          ∀ (burn : Request) (part : Amount) (e' : Effect), burn.caller = request.caller →
            burn.action = .burn part → e.ledger.attempt burn = .ok e' → e'.interest = 0 →
            ∃ paid left : Amount, e'.receipt = .burned part paid ∧
              e'.ledger.shareValue request.caller = .ok left ∧
              left.toNat + paid.toNat ≤ before.toNat + amount.toNat + fee.toNat ∧
              (part ≤ minted → paid.toNat ≤ amount.toNat + fee.toNat) := by
  obtain ⟨time, charged, acted, -, hcharged, hacts, hstamp⟩ := exists_of_attempt h
  have hl := (sound_iff.mpr haudit).accrue hcharged
  have hacted := hl.act hacts
  obtain ⟨before, hbefore⟩ := hl.exists_shareValue request.caller
  obtain ⟨now, hnow⟩ := hacted.exists_shareValue request.caller
  -- The stamp is not read when shares are priced.
  have hstamped : (acted.stamp time).shareValue request.caller = .ok now := hnow
  rw [hstamp]
  refine ⟨charged, before, now, hcharged, hbefore, hstamped, ?_, ?_⟩
  · intro shares hburn
    rw [hburn] at hacts
    obtain ⟨redeemed, hreceipt, hquote, hleaves⟩ := hacts.supplies_of_burn
    exact ⟨redeemed, hreceipt, hacted.value_of_burn hleaves hquote hbefore hnow⟩
  · intro amount hmint
    rw [hmint] at hacts
    obtain ⟨minted, fee, hreceipt, hquote, hjoins⟩ := hacts.supplies_of_mint
    have hmore : amount.toNat ≤ amount.toNat + fee.toNat := Nat.le_add_right _ _
    have hprice := mul_le_of_minted hquote hmore
    have hgain := hl.value_of_mint_le hacted hjoins hprice hbefore hnow
    rw [← Nat.add_assoc] at hgain
    refine ⟨minted, fee, hreceipt, hgain, ?_, ?_⟩
    · intro hpos hliquid
      exact hl.add_le_value_of_mint hjoins hmore hpos hliquid hquote hbefore hnow
    · intro burn part e' hcaller hburn h' hfree
      rw [← hcaller] at hstamped ⊢
      obtain ⟨paid, left, hreceipt', hquote', hleft, hout⟩ :=
        (kept_sound.stamp time hacted).exists_of_free_burn h' hburn hfree hstamped
      exact ⟨paid, left, hreceipt', hleft, Nat.le_trans hout hgain,
        fun hpart => hjoins.le_of_redeemed hprice hpart hquote'⟩

/-- The two holders in a pool that charges a fee for minting. -/
def feePayingHolders : Ledger := twoHolders.withFees { minting := ⟨65000000000000000, by decide⟩ }

/-- One of them burns, and the other mints and burns all that was minted. -/
theorem two_stakes_move_by_what_is_supplied :
    feePayingHolders.audit = .ok () ∧
    (∃ (e : Effect) (charged : Ledger) (redeemed before after : Amount),
      feePayingHolders.attempt (.charging 0 (.burn ⟨5, by decide⟩) ⟨4, by decide⟩) = .ok e ∧
      feePayingHolders.accrue e.interest = .ok charged ∧
      e.receipt = .burned ⟨5, by decide⟩ redeemed ∧
      charged.shareValue 0 = .ok before ∧ e.ledger.shareValue 0 = .ok after ∧
      after.toNat + redeemed.toNat ≤ before.toNat ∧
      before.toNat ≤ after.toNat + redeemed.toNat + 1) ∧
    ∃ (e e' : Effect) (charged : Ledger) (before after paid left : Amount),
      feePayingHolders.attempt (.charging ⟨List.replicate 32 3, rfl⟩ (.mint ⟨33, by decide⟩)
        ⟨4, by decide⟩) = .ok e ∧
      feePayingHolders.accrue e.interest = .ok charged ∧ 0 < charged.pool.shares.toNat ∧
      0 < charged.pool.liquidity.toNat ∧
      e.receipt = .minted ⟨33, by decide⟩ ⟨20, by decide⟩ ⟨3, by decide⟩ ∧
      charged.shareValue ⟨List.replicate 32 3, rfl⟩ = .ok before ∧
      e.ledger.shareValue ⟨List.replicate 32 3, rfl⟩ = .ok after ∧
      after.toNat ≤ before.toNat + 33 + 3 ∧
      before.toNat + 33 ≤ after.toNat + charged.pool.sharePrice ∧
      e.ledger.attempt (.charging ⟨List.replicate 32 3, rfl⟩ (.burn ⟨20, by decide⟩) 0) =
        .ok e' ∧
      e'.receipt = .burned ⟨20, by decide⟩ paid ∧
      e'.ledger.shareValue ⟨List.replicate 32 3, rfl⟩ = .ok left ∧
      left.toNat + paid.toNat ≤ before.toNat + 33 + 3 ∧ paid.toNat ≤ 33 + 3 := by
  have haudit : feePayingHolders.audit = .ok () := rfl
  refine ⟨haudit, ?_, ?_⟩
  · obtain ⟨e, he⟩ : ∃ e, feePayingHolders.attempt
        (.charging 0 (.burn ⟨5, by decide⟩) ⟨4, by decide⟩) = .ok e := ⟨_, rfl⟩
    obtain ⟨charged, before, after, hcharged, hbefore, hafter, hburn, -⟩ :=
      stakes_move_by_what_is_supplied haudit he
    obtain ⟨redeemed, hreceipt, hle, hge⟩ := hburn _ rfl
    exact ⟨e, charged, redeemed, before, after, he, hcharged, hreceipt, hbefore, hafter, hle, hge⟩
  · obtain ⟨e, e', he, he', hreceipt, hfree⟩ : ∃ e e', feePayingHolders.attempt
        (.charging ⟨List.replicate 32 3, rfl⟩ (.mint ⟨33, by decide⟩) ⟨4, by decide⟩) = .ok e ∧
        e.ledger.attempt (.charging ⟨List.replicate 32 3, rfl⟩ (.burn ⟨20, by decide⟩) 0) =
          .ok e' ∧
        e.receipt = .minted ⟨33, by decide⟩ ⟨20, by decide⟩ ⟨3, by decide⟩ ∧ e'.interest = 0 :=
      ⟨_, _, rfl, rfl, rfl, rfl⟩
    obtain ⟨charged, before, after, hcharged, hbefore, hafter, -, hmint⟩ :=
      stakes_move_by_what_is_supplied haudit he
    obtain ⟨hshares, hliquid⟩ :
        0 < charged.pool.shares.toNat ∧ 0 < charged.pool.liquidity.toNat := by
      have hshares : 0 < feePayingHolders.pool.shares.toNat := by decide
      have hliquid : 0 < feePayingHolders.pool.liquidity.toNat := by decide
      obtain ⟨liquidity, hliquidity, rfl⟩ := accrue_eq_ok_iff.mp hcharged
      exact ⟨hshares, by simp only; omega⟩
    obtain ⟨minted, fee, hminted, hmost, hleast, hback⟩ := hmint _ rfl
    rw [hreceipt] at hminted
    cases hminted
    obtain ⟨paid, left, hpaid, hleft, hout, hpart⟩ :=
      hback (.charging ⟨List.replicate 32 3, rfl⟩ (.burn ⟨20, by decide⟩) 0) _ e' rfl rfl he' hfree
    exact ⟨e, e', charged, before, after, paid, left, he, hcharged, hshares, hliquid, hreceipt,
      hbefore, hafter, hmost, hleast hshares hliquid, he', hpaid, hleft, hout,
      hpart (Nat.le_refl _)⟩

end Ledger

end Lending
