import Mathlib

namespace Malachite

/-! The GossipSub mesh parameters of the config crate (`config/src/lib.rs`): `GossipSubConfig`,
its constructor `new`, which every configuration goes through, and `adjust`, which `new` calls
to correct what the user gave.

`adjust` sets each field in turn from those before it, so it is modelled as four steps, one for
each `if` of the source.  The fields are `usize`, and the workspace builds release with
`overflow-checks = true`, so an arithmetic overflow panics, which is `none` here.  Two of them
are reachable: `mesh_n * 2`, which the second and third steps compute when they correct their
field and which overflows once `mesh_n` reaches `2^63`, and `mesh_n_low - 1` in the last step,
which overflows when `mesh_n_low` is 0 there, that is when `mesh_n` is 1 and `mesh_n_low` is
not: `1 * 2 / 3` is 0.

The doc of `mesh_outbound_min` asks it to be at most `mesh_n / 2` and less than `mesh_n_low`.
`adjust` meets that exactly when it leaves `mesh_n_low` at 2 or more; at 1, its fallback
`max(1, ...)` makes `mesh_outbound_min` equal to `mesh_n_low`.

A configuration file is read through `RawConfig`, whose fields default to 0, and `new`; the
derived `Serialize` writes the four fields back under the same names.  Since `adjust` leaves a
configuration it made as it is, what `new` returns is read back unchanged. -/

/-- One more than `usize::MAX` on the 64-bit targets the node is built for. -/
def usizeBound : Nat := 2 ^ 64

/-- `GossipSubConfig`: the target degree of the mesh (`mesh_n`, D in the GossipSub spec), the
degrees past which peers are removed (`mesh_n_high`) or added (`mesh_n_low`), and the least
number of outbound peers (`mesh_outbound_min`). -/
structure GossipSubConfig where
  meshN : Nat
  meshNHigh : Nat
  meshNLow : Nat
  meshOutboundMin : Nat
deriving DecidableEq, Repr

namespace GossipSubConfig

/-- `if self.mesh_n == 0 { self.mesh_n = 6 }`. -/
def adjustMeshN (config : GossipSubConfig) : GossipSubConfig :=
  if config.meshN = 0 then { config with meshN := 6 } else config

/-- `if self.mesh_n_high == 0 || self.mesh_n_high < self.mesh_n { ... }`; `none` where
`self.mesh_n * 2` overflows. -/
def adjustMeshNHigh (config : GossipSubConfig) : Option GossipSubConfig :=
  if config.meshNHigh = 0 ∨ config.meshNHigh < config.meshN then
    if usizeBound ≤ config.meshN * 2 then none
    else some { config with meshNHigh := config.meshN * 2 }
  else some config

/-- `if self.mesh_n_low == 0 || self.mesh_n_low > self.mesh_n { ... }`; `none` where
`self.mesh_n * 2` overflows. -/
def adjustMeshNLow (config : GossipSubConfig) : Option GossipSubConfig :=
  if config.meshNLow = 0 ∨ config.meshNLow > config.meshN then
    if usizeBound ≤ config.meshN * 2 then none
    else some { config with meshNLow := config.meshN * 2 / 3 }
  else some config

/-- The last `if` of `adjust`; `none` where `self.mesh_n_low - 1` overflows. -/
def adjustMeshOutboundMin (config : GossipSubConfig) : Option GossipSubConfig :=
  if config.meshOutboundMin = 0 ∨ config.meshOutboundMin > config.meshN / 2 ∨
      config.meshOutboundMin ≥ config.meshNLow then
    if config.meshNLow = 0 then none
    else some { config with
      meshOutboundMin := max 1 (min (config.meshN / 2) (config.meshNLow - 1)) }
  else some config

/-- `adjust`. -/
def adjust (config : GossipSubConfig) : Option GossipSubConfig :=
  (config.adjustMeshN.adjustMeshNHigh.bind adjustMeshNLow).bind adjustMeshOutboundMin

/-- `GossipSubConfig::new`. -/
def new (meshN meshNHigh meshNLow meshOutboundMin : Nat) : Option GossipSubConfig :=
  adjust ⟨meshN, meshNHigh, meshNLow, meshOutboundMin⟩

/-- `GossipSubConfig::default`. -/
def default : Option GossipSubConfig := new 6 12 4 2

example : default = some ⟨6, 12, 4, 2⟩ := by decide

/-- What the doc of `mesh_outbound_min` asks of it. -/
def OutboundDocumented (config : GossipSubConfig) : Prop :=
  config.meshOutboundMin ≤ config.meshN / 2 ∧ config.meshOutboundMin < config.meshNLow

/-! Each step sets its own field, or fails on an overflow, and keeps the others. -/

@[simp] theorem meshN_adjustMeshN (config : GossipSubConfig) :
    config.adjustMeshN.meshN = if config.meshN = 0 then 6 else config.meshN := by
  unfold adjustMeshN; split <;> simp [*]

@[simp] theorem meshNHigh_adjustMeshN (config : GossipSubConfig) :
    config.adjustMeshN.meshNHigh = config.meshNHigh := by
  unfold adjustMeshN; split <;> rfl

@[simp] theorem meshNLow_adjustMeshN (config : GossipSubConfig) :
    config.adjustMeshN.meshNLow = config.meshNLow := by
  unfold adjustMeshN; split <;> rfl

theorem adjustMeshNHigh_eq_none_iff (config : GossipSubConfig) :
    config.adjustMeshNHigh = none ↔
      (config.meshNHigh = 0 ∨ config.meshNHigh < config.meshN) ∧ usizeBound ≤ config.meshN * 2 := by
  unfold adjustMeshNHigh
  split
  · split <;> simp [*]
  · simp [*]

theorem adjustMeshNHigh_eq_some {config next : GossipSubConfig}
    (done : config.adjustMeshNHigh = some next) :
    next.meshN = config.meshN ∧ next.meshNLow = config.meshNLow ∧ next.meshN ≤ next.meshNHigh := by
  unfold adjustMeshNHigh at done
  split at done
  · split at done
    · cases done
    · cases done
      exact ⟨rfl, rfl, by dsimp only; omega⟩
  · cases done
    exact ⟨rfl, rfl, by omega⟩

theorem adjustMeshNLow_eq_none_iff (config : GossipSubConfig) :
    config.adjustMeshNLow = none ↔
      (config.meshNLow = 0 ∨ config.meshNLow > config.meshN) ∧ usizeBound ≤ config.meshN * 2 := by
  unfold adjustMeshNLow
  split
  · split <;> simp [*]
  · simp [*]

theorem adjustMeshNLow_eq_some {config next : GossipSubConfig}
    (done : config.adjustMeshNLow = some next) :
    next.meshN = config.meshN ∧ next.meshNHigh = config.meshNHigh ∧
      next.meshNLow =
        if config.meshNLow = 0 ∨ config.meshNLow > config.meshN then config.meshN * 2 / 3
        else config.meshNLow := by
  unfold adjustMeshNLow at done
  split at done
  · split at done
    · cases done
    · cases done
      simp [*]
  · cases done
    simp [*]

/-- The last step fails exactly when `mesh_n_low` is 0, where its condition always holds, and
otherwise sets only `mesh_outbound_min`: kept when it meets the doc, its fallback when not. -/
theorem adjustMeshOutboundMin_eq_none_iff (config : GossipSubConfig) :
    config.adjustMeshOutboundMin = none ↔ config.meshNLow = 0 := by
  unfold adjustMeshOutboundMin
  split
  · split <;> simp [*]
  · simp only [reduceCtorEq, false_iff]; omega

theorem adjustMeshOutboundMin_eq_some {config adjusted : GossipSubConfig}
    (done : config.adjustMeshOutboundMin = some adjusted) :
    0 < config.meshNLow ∧
      (OutboundDocumented config ∧ 0 < config.meshOutboundMin ∧ adjusted = config ∨
        adjusted = { config with
          meshOutboundMin := max 1 (min (config.meshN / 2) (config.meshNLow - 1)) }) := by
  unfold adjustMeshOutboundMin at done
  split at done
  · split at done
    · cases done
    · cases done
      exact ⟨by omega, .inr rfl⟩
  · cases done
    refine ⟨by omega, .inl ⟨?_, by omega, rfl⟩⟩
    unfold OutboundDocumented
    omega

/-- `adjust` panics exactly where the product `mesh_n * 2` overflows in a step that corrects
its field, or where `mesh_n_low` falls back to 0. -/
theorem adjust_eq_none_iff (config : GossipSubConfig) :
    config.adjust = none ↔
      usizeBound ≤ config.meshN * 2 ∧
          (config.meshNHigh = 0 ∨ config.meshNHigh < config.meshN ∨ config.meshNLow = 0 ∨
            config.meshNLow > config.meshN) ∨
        config.meshN = 1 ∧ config.meshNLow ≠ 1 := by
  -- the first step only replaces a `mesh_n` of 0, far below the overflow
  have bound : (12 : Nat) < usizeBound := by decide
  have meshN := meshN_adjustMeshN config
  have high := meshNHigh_adjustMeshN config
  have low := meshNLow_adjustMeshN config
  have sameOverflow : usizeBound ≤ config.adjustMeshN.meshN * 2 ↔ usizeBound ≤ config.meshN * 2 := by
    rw [meshN]; split <;> omega
  unfold adjust
  cases highStep : config.adjustMeshN.adjustMeshNHigh with
  | none =>
      obtain ⟨corrected, overflow⟩ := (adjustMeshNHigh_eq_none_iff _).mp highStep
      simp only [Option.bind_none, true_iff]
      rw [meshN, high] at corrected
      rw [sameOverflow] at overflow
      split at corrected <;> omega
  | some second =>
      have keptHigh := mt (adjustMeshNHigh_eq_none_iff config.adjustMeshN).mpr (by simp [highStep])
      obtain ⟨secondN, secondLow, -⟩ := adjustMeshNHigh_eq_some highStep
      rw [sameOverflow, meshN, high] at keptHigh
      rw [Option.bind_some]
      cases lowStep : second.adjustMeshNLow with
      | none =>
          obtain ⟨corrected, overflow⟩ := (adjustMeshNLow_eq_none_iff _).mp lowStep
          simp only [Option.bind_none, true_iff]
          rw [secondN, secondLow, meshN, low] at corrected
          rw [secondN, sameOverflow] at overflow
          split at corrected <;> omega
      | some third =>
          have keptLow := mt (adjustMeshNLow_eq_none_iff second).mpr (by simp [lowStep])
          obtain ⟨-, -, thirdLow⟩ := adjustMeshNLow_eq_some lowStep
          rw [secondN, secondLow, sameOverflow, meshN, low] at keptLow
          rw [Option.bind_some, adjustMeshOutboundMin_eq_none_iff, thirdLow, secondN, secondLow,
            meshN, low]
          -- no product overflowed, so only the fallback of `mesh_n_low` to 0 is left
          by_cases zero : config.meshN = 0
          · simp only [zero, if_true] at keptLow keptHigh ⊢
            split <;> omega
          · simp only [zero, if_false] at keptLow keptHigh ⊢
            split <;> omega

example : new 1 0 0 0 = none := by decide

example : new (2 ^ 63) 0 0 0 = none := by decide

/-- What a configuration that `adjust` returns satisfies: the degrees are ordered, there is an
outbound peer to keep, and the doc of `mesh_outbound_min` holds exactly when `mesh_n_low` is
at least 2. -/
structure Adjusted (config : GossipSubConfig) : Prop where
  meshNLow_pos : 0 < config.meshNLow
  meshNLow_le_meshN : config.meshNLow ≤ config.meshN
  meshN_le_meshNHigh : config.meshN ≤ config.meshNHigh
  meshOutboundMin_pos : 0 < config.meshOutboundMin
  meshOutboundMin_le_meshNLow : config.meshOutboundMin ≤ config.meshNLow
  documented_iff : OutboundDocumented config ↔ 2 ≤ config.meshNLow

theorem Adjusted.meshN_pos {config : GossipSubConfig} (bounds : Adjusted config) :
    0 < config.meshN :=
  Nat.lt_of_lt_of_le bounds.meshNLow_pos bounds.meshNLow_le_meshN

/-- The fallback of the last step meets the doc exactly when `mesh_n_low` is 2 or more. -/
theorem outboundDocumented_fallback_iff {config : GossipSubConfig}
    (ordered : config.meshNLow ≤ config.meshN) :
    OutboundDocumented
        { config with meshOutboundMin := max 1 (min (config.meshN / 2) (config.meshNLow - 1)) } ↔
      2 ≤ config.meshNLow := by
  unfold OutboundDocumented
  simp only
  omega

theorem adjusted_of_adjustMeshOutboundMin {config adjusted : GossipSubConfig}
    (ordered : config.meshNLow ≤ config.meshN) (high : config.meshN ≤ config.meshNHigh)
    (done : config.adjustMeshOutboundMin = some adjusted) : Adjusted adjusted := by
  obtain ⟨lowPos, ⟨documented, outboundPos, rfl⟩ | rfl⟩ := adjustMeshOutboundMin_eq_some done
  · have bounds := documented
    unfold OutboundDocumented at bounds
    exact ⟨lowPos, ordered, high, outboundPos, by omega, iff_of_true documented (by omega)⟩
  · refine ⟨lowPos, ordered, high, ?_, ?_, outboundDocumented_fallback_iff ordered⟩ <;>
      dsimp only <;> omega

/-- The three steps of `adjust` that a returned configuration went through. -/
theorem adjust_eq_some {config adjusted : GossipSubConfig} (done : config.adjust = some adjusted) :
    ∃ second third, config.adjustMeshN.adjustMeshNHigh = some second ∧
      second.adjustMeshNLow = some third ∧ third.adjustMeshOutboundMin = some adjusted := by
  unfold adjust at done
  obtain ⟨third, corrected, last⟩ := Option.bind_eq_some_iff.mp done
  obtain ⟨second, high, low⟩ := Option.bind_eq_some_iff.mp corrected
  exact ⟨second, third, high, low, last⟩

theorem adjust_adjusted {config adjusted : GossipSubConfig}
    (done : config.adjust = some adjusted) : Adjusted adjusted := by
  obtain ⟨second, third, highDone, lowDone, last⟩ := adjust_eq_some done
  obtain ⟨secondN, -, high⟩ := adjustMeshNHigh_eq_some highDone
  obtain ⟨thirdN, thirdHigh, thirdLow⟩ := adjustMeshNLow_eq_some lowDone
  -- `mesh_n_low` is corrected to at most `mesh_n`, and the degrees above it are kept
  have ordered : third.meshNLow ≤ third.meshN := by
    rw [thirdLow, thirdN]; split <;> omega
  exact adjusted_of_adjustMeshOutboundMin ordered (by rw [thirdN, thirdHigh]; exact high) last

/-- With `mesh_n` 2, `mesh_n_low` falls back to 1 and `mesh_outbound_min` to 1 with it. -/
theorem adjust_two_adjusted :
    adjust ⟨2, 0, 0, 0⟩ = some ⟨2, 4, 1, 1⟩ ∧ Adjusted ⟨2, 4, 1, 1⟩ :=
  ⟨by decide, adjust_adjusted (show adjust ⟨2, 0, 0, 0⟩ = some ⟨2, 4, 1, 1⟩ by decide)⟩

/-! `adjust` changes nothing in what it returns. -/

theorem adjustMeshN_of_pos {config : GossipSubConfig} (positive : 0 < config.meshN) :
    config.adjustMeshN = config := by
  unfold adjustMeshN; rw [if_neg (by omega)]

theorem adjustMeshNHigh_of_le {config : GossipSubConfig} (positive : 0 < config.meshN)
    (high : config.meshN ≤ config.meshNHigh) : config.adjustMeshNHigh = some config := by
  unfold adjustMeshNHigh; rw [if_neg (by omega)]

theorem adjustMeshNLow_of_le {config : GossipSubConfig} (positive : 0 < config.meshNLow)
    (ordered : config.meshNLow ≤ config.meshN) : config.adjustMeshNLow = some config := by
  unfold adjustMeshNLow; rw [if_neg (by omega)]

/-- On a configuration it returned, the last step either keeps `mesh_outbound_min`, which
then meets its condition, or computes its fallback again from the same `mesh_n` and
`mesh_n_low`. -/
theorem adjustMeshOutboundMin_adjusted {config adjusted : GossipSubConfig}
    (done : config.adjustMeshOutboundMin = some adjusted) :
    adjusted.adjustMeshOutboundMin = some adjusted := by
  obtain ⟨lowPos, ⟨-, -, rfl⟩ | rfl⟩ := adjustMeshOutboundMin_eq_some done
  · exact done
  · unfold adjustMeshOutboundMin
    dsimp only
    split
    · rw [if_neg (by omega)]
    · rfl

theorem adjust_adjust {config adjusted : GossipSubConfig}
    (done : config.adjust = some adjusted) : adjusted.adjust = some adjusted := by
  have bounds := adjust_adjusted done
  obtain ⟨second, third, -, -, last⟩ := adjust_eq_some done
  unfold adjust
  rw [adjustMeshN_of_pos bounds.meshN_pos,
    adjustMeshNHigh_of_le bounds.meshN_pos bounds.meshN_le_meshNHigh, Option.bind_some,
    adjustMeshNLow_of_le bounds.meshNLow_pos bounds.meshNLow_le_meshN, Option.bind_some]
  exact adjustMeshOutboundMin_adjusted last

/-- `gossipsub::RawConfig`: the four fields as a configuration file gives them, 0 where it
gives none. -/
structure RawConfig where
  meshN : Nat := 0
  meshNHigh : Nat := 0
  meshNLow : Nat := 0
  meshOutboundMin : Nat := 0
deriving DecidableEq, Repr

/-- `From<RawConfig> for GossipSubConfig`. -/
def RawConfig.into (raw : RawConfig) : Option GossipSubConfig :=
  new raw.meshN raw.meshNHigh raw.meshNLow raw.meshOutboundMin

/-- What the derived `Serialize` writes: the four fields, under the names `RawConfig` reads. -/
def toRaw (config : GossipSubConfig) : RawConfig :=
  ⟨config.meshN, config.meshNHigh, config.meshNLow, config.meshOutboundMin⟩

theorem into_toRaw_of_new {meshN meshNHigh meshNLow meshOutboundMin : Nat}
    {config : GossipSubConfig} (made : new meshN meshNHigh meshNLow meshOutboundMin = some config) :
    config.toRaw.into = some config :=
  adjust_adjust made

/-- A file that gives no field reads as `⟨6, 12, 4, 3⟩`, and that is read back unchanged. -/
theorem new_zero_read_back :
    new 0 0 0 0 = some ⟨6, 12, 4, 3⟩ ∧ (toRaw ⟨6, 12, 4, 3⟩).into = some ⟨6, 12, 4, 3⟩ :=
  ⟨by decide, into_toRaw_of_new (show new 0 0 0 0 = some ⟨6, 12, 4, 3⟩ by decide)⟩

end GossipSubConfig

end Malachite
