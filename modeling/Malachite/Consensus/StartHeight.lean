import Malachite.Driver.Process

namespace Malachite.Consensus

/-! Starting a new height (`reset_and_start_height` in `core-consensus/src/state.rs`, which
calls `Driver::move_to_height`), and the round certificate the consensus core sends when it
enters a round (`apply_driver_input` on `NewRound`, `handle/driver.rs`) and again on every
rebroadcast timeout (`on_rebroadcast_timeout`).

`move_to_height` rebuilds every field that `Driver::new` sets but two: the proposer and the
round certificate are kept.  A certificate stored at one height is therefore published at
the next one, as soon as the node enters the round the certificate is for. -/

variable {C : Context}

/-- `State::is_active_validator`: participation is enabled and the node's address is in the
validator set. -/
def isActiveValidator (enabled : Bool) (driver : Driver C) : Bool :=
  enabled && (driver.validatorSet.getByAddress driver.address).isSome

/-- The certificate of `round_certificate()` when it is for entering `round`. -/
def certificateEntering (driver : Driver C) (round : Round) : Option (RoundCertificate C) :=
  match driver.roundCertificate with
  | some certificate => if certificate.enterRound = round then some certificate.certificate else none
  | none => none

/-- The round certificate `apply_driver_input` publishes on `NewRound(_, round, _)`. -/
def newRoundCertificate (enabled : Bool) (driver : Driver C) (round : Round) :
    Option (RoundCertificate C) :=
  if round > .some 0 ∧ isActiveValidator enabled driver = true then certificateEntering driver round
  else none

/-- The round certificate `on_rebroadcast_timeout` republishes, at the driver's round. -/
def rebroadcastRoundCertificate (enabled : Bool) (driver : Driver C) : Option (RoundCertificate C) :=
  if isActiveValidator enabled driver then certificateEntering driver driver.round else none

namespace Driver

/-- `move_to_height` is `Driver::new` at the new height, with the proposer and the round
certificate of the driver it starts from. -/
theorem moveToHeight_eq (driver : Driver C) (height : C.Height) (validatorSet : ValidatorSet C) :
    driver.moveToHeight height validatorSet =
      { Driver.new height validatorSet driver.address driver.thresholdParams with
        proposer := driver.proposer, roundCertificate := driver.roundCertificate } :=
  rfl

theorem moveToHeight_eq_new_iff (driver : Driver C) (height : C.Height)
    (validatorSet : ValidatorSet C) :
    driver.moveToHeight height validatorSet =
        Driver.new height validatorSet driver.address driver.thresholdParams ↔
      driver.proposer = none ∧ driver.roundCertificate = none := by
  rw [moveToHeight_eq]
  constructor
  · intro same
    exact ⟨congrArg Driver.proposer same, congrArg Driver.roundCertificate same⟩
  · rintro ⟨noProposer, noCertificate⟩
    rw [noProposer, noCertificate]
    rfl

end Driver

theorem move_to_height_keeps_round_certificate (driver : Driver C) (height : C.Height)
    (validatorSet : ValidatorSet C) {certificate : EnterRoundCertificate C}
    (certified : driver.roundCertificate = some certificate) :
    driver.moveToHeight height validatorSet =
        { Driver.new height validatorSet driver.address driver.thresholdParams with
          proposer := driver.proposer, roundCertificate := some certificate } ∧
      driver.moveToHeight height validatorSet ≠
        Driver.new height validatorSet driver.address driver.thresholdParams ∧
      ∀ enabled, .some 0 < certificate.enterRound →
        isActiveValidator enabled (driver.moveToHeight height validatorSet) = true →
        newRoundCertificate enabled (driver.moveToHeight height validatorSet)
          certificate.enterRound = some certificate.certificate := by
  refine ⟨by rw [Driver.moveToHeight_eq, certified], fun same => ?_, fun enabled later active => ?_⟩
  · have reset := ((Driver.moveToHeight_eq_new_iff driver height validatorSet).mp same).2
    rw [certified] at reset
    cases reset
  · -- the certificate survives the reset, and it is for the round being entered
    have kept : (driver.moveToHeight height validatorSet).roundCertificate = some certificate :=
      certified
    rw [newRoundCertificate, if_pos ⟨later, active⟩, certificateEntering, kept]
    exact if_pos rfl

/-- Node 0 at height 0 sees prevotes of round 1 from validators 1 and 2, and stores the skip
certificate for entering round 1.  After the move to height 1 the certificate is still there:
entering round 1 publishes it, a certificate of height 0, and every rebroadcast timeout of
round 1 sends it again. -/
theorem stale_round_certificate_published :
    let reached := ((Driver.new 0 fourValidators 0 .default : Driver testContext).run
      [.newRound 0 (.some 0) 1, .vote ⟨Vote.newPrevote 0 (.some 1) (.val 5) 1, 1⟩,
        .vote ⟨Vote.newPrevote 0 (.some 1) (.val 5) 2, 2⟩]).1
    let certificate : EnterRoundCertificate testContext :=
      ⟨⟨0, .some 1, .skip, [⟨.prevote, .val 5, 1, 1⟩, ⟨.prevote, .val 5, 2, 2⟩]⟩, .some 1⟩
    reached.roundCertificate = some certificate ∧
      reached.moveToHeight 1 fourValidators ≠ Driver.new 1 fourValidators 0 .default ∧
      newRoundCertificate true (reached.moveToHeight 1 fourValidators) (.some 1) =
        some certificate.certificate ∧
      rebroadcastRoundCertificate true
          ((reached.moveToHeight 1 fourValidators).process (.newRound 1 (.some 1) 1)).1 =
        some certificate.certificate ∧
      certificate.certificate.height = 0 := by
  intro reached certificate
  have certified : reached.roundCertificate = some certificate := by decide
  obtain ⟨-, fresh, published⟩ :=
    move_to_height_keeps_round_certificate reached 1 fourValidators certified
  have republished : rebroadcastRoundCertificate true
      ((reached.moveToHeight 1 fourValidators).process (.newRound 1 (.some 1) 1)).1 =
        some certificate.certificate := by
    decide
  exact ⟨certified, fresh, published true (by decide) (by decide), republished, rfl⟩

end Malachite.Consensus
