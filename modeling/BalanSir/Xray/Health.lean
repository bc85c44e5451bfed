/-
# The restarts of a running driver

`L2RecoveryConfig` and `L2Recovery`.
-/

import BalanSir.Vpn.Pool

namespace BalanSir.Xray

inductive HealthStatus where
  | healthy
  | degraded (reason : UInt32)
  | unhealthy (reason : UInt32)
  | unknown
  deriving DecidableEq

def i64Max : ℤ := 2 ^ 63 - 1

def i64Min : ℤ := -2 ^ 63

/-- `i64::saturating_sub`. -/
def saturatingSub (a b : ℤ) : ℤ := max i64Min (min i64Max (a - b))

structure L2RecoveryConfig where
  graceMs : ℕ := 10000
  maxRestarts : ℕ := 3
  windowMs : ℕ := 60000
  backoffMs : ℕ := 5000
  deriving DecidableEq

inductive L2Action where
  | none
  | grace
  | restart
  | exhaust
  deriving DecidableEq

/-- The bounded restarts of one driver. -/
structure L2Recovery where
  cfg : L2RecoveryConfig := {}
  startedMs : ℤ := 0
  badCount : ℕ := 0
  restartsInWindow : ℕ := 0
  windowStartMs : ℤ := 0
  lastRestartMs : ℤ := 0
  exhausted : Bool := false
  deriving DecidableEq

variable (l2 : L2Recovery)

def L2Recovery.onStart (nowMs : ℤ) : L2Recovery :=
  { l2 with startedMs := nowMs, badCount := 0, restartsInWindow := 0, windowStartMs := 0,
            lastRestartMs := i64Min, exhausted := false }

def L2Recovery.onRestart (nowMs : ℤ) : L2Recovery :=
  { l2 with startedMs := nowMs, badCount := 0, lastRestartMs := nowMs }

def L2Recovery.bad (nowMs : ℤ) : L2Action × L2Recovery :=
  let l2 := { l2 with badCount := l2.badCount + 1 }
  if max (saturatingSub nowMs l2.lastRestartMs) 0 < Vpn.asI64 l2.cfg.backoffMs then (.grace, l2)
  else
    let l2 := if Vpn.asI64 l2.cfg.windowMs ≤ saturatingSub nowMs l2.windowStartMs then
      { l2 with windowStartMs := nowMs, restartsInWindow := 0 } else l2
    if l2.cfg.maxRestarts ≤ l2.restartsInWindow then (.exhaust, { l2 with exhausted := true })
    else (.restart, { l2 with restartsInWindow := l2.restartsInWindow + 1, lastRestartMs := nowMs })

/-- `observe`: only a bad status outside the grace window counts. -/
def L2Recovery.observe (status : HealthStatus) (nowMs : ℤ) : L2Action × L2Recovery :=
  if l2.exhausted then (.exhaust, l2)
  else
    let inGrace := max (saturatingSub nowMs l2.startedMs) 0 < Vpn.asI64 l2.cfg.graceMs
    match status with
    | .healthy => (.none, { l2 with badCount := 0, restartsInWindow := 0, windowStartMs := 0 })
    | .unknown | .degraded _ | .unhealthy _ => if inGrace then (.grace, l2) else l2.bad nowMs

end BalanSir.Xray
