/-
# Advances of a clock that is set by hand

An advance takes the steady time on by all of its nanoseconds and the wall clock by the whole
microseconds in it. What is left of it, less than a microsecond, is not kept for the next one, so
the wall clock falls behind the steady time by what is left of each advance, all added up
(`Manual.cutOff`). The two go on together exactly as long as this is less than a microsecond
(`Manual.wall_clock_lags`): a time that is advanced in small parts can leave the wall clock where it
was (`Manual.wall_clock_stops`).

Key definitions: `Manual.after`, `Manual.total`, `Manual.wholeUsec`, `Manual.cutOff`.
Key theorems: `Manual.steady_after`, `Manual.unixUsec_after`, `Manual.usec_add_cutOff`,
`Manual.wall_clock_lags`.
-/
import FlightLink.Clock.Manual

namespace FlightLink
namespace Clock
namespace Manual

/-- The clock after advances. -/
def after (c : Manual) : List UInt64 → Manual
  | [] => c
  | ns :: advances => (c.advance ns).after advances

/-- The nanoseconds of all advances. -/
def total : List UInt64 → Nat
  | [] => 0
  | ns :: advances => ns.toNat + total advances

/-- The whole microseconds in each of the advances. -/
def wholeUsec : List UInt64 → Nat
  | [] => 0
  | ns :: advances => ns.toNat / 1000 + wholeUsec advances

/-- The nanoseconds that are left of each of the advances. -/
def cutOff : List UInt64 → Nat
  | [] => 0
  | ns :: advances => ns.toNat % 1000 + cutOff advances

/-- Nothing but what is left of them is lost of the advances. -/
theorem usec_add_cutOff : ∀ advances : List UInt64,
    1000 * wholeUsec advances + cutOff advances = total advances
  | [] => rfl
  | ns :: advances => by
    have ih := usec_add_cutOff advances
    have hns := Nat.div_add_mod ns.toNat 1000
    simp only [wholeUsec, cutOff, total, Nat.mul_add]
    omega

/-- Each advance leaves less than a microsecond. -/
theorem cutOff_le : ∀ advances : List UInt64, cutOff advances ≤ 999 * advances.length
  | [] => Nat.le_refl 0
  | ns :: advances => by
    have ih := cutOff_le advances
    have hns := Nat.mod_lt ns.toNat (show 0 < 1000 by decide)
    simp only [cutOff, List.length_cons]
    omega

/-- The steady time goes on by all of the advances, around the end of a word. -/
theorem steady_after : ∀ (advances : List UInt64) (c : Manual),
    (c.after advances).steady.toNat = (c.steady.toNat + total advances) % UInt64.size
  | [], c => (Nat.mod_eq_of_lt c.steady.toNat_lt).symm
  | ns :: advances, c => by
    have ih := steady_after advances (c.advance ns)
    have hstep : (c.advance ns).steady.toNat = (c.steady.toNat + ns.toNat) % UInt64.size :=
      UInt64.toNat_add c.steady ns
    rw [hstep, Nat.mod_add_mod, Nat.add_assoc] at ih
    exact ih

/-- The wall clock goes on by the whole microseconds in them. -/
theorem unixUsec_after : ∀ (advances : List UInt64) (c : Manual),
    (c.after advances).unixUsec.toNat = (c.unixUsec.toNat + wholeUsec advances) % UInt64.size
  | [], c => (Nat.mod_eq_of_lt c.unixUsec.toNat_lt).symm
  | ns :: advances, c => by
    have ih := unixUsec_after advances (c.advance ns)
    have hstep : (c.advance ns).unixUsec.toNat =
        (c.unixUsec.toNat + ns.toNat / 1000) % UInt64.size :=
      UInt64.toNat_add c.unixUsec (ns / 1000)
    rw [hstep, Nat.mod_add_mod, Nat.add_assoc] at ih
    exact ih

theorem ext_toNat {c c' : Manual} (hsteady : c.steady.toNat = c'.steady.toNat)
    (hwall : c.unixUsec.toNat = c'.unixUsec.toNat) : c = c' := by
  cases c
  cases c'
  simp_all [UInt64.toNat_inj]

/-- **The wall clock lags by what is left of the advances.** As long as no time comes to the end of
its word, the steady time grows by the sum of the advances, and the wall clock by the microseconds
of this sum less those that are left of the advances together. So it shows the right time exactly if
less than a microsecond is left of them all, and other advances of the same sum lead to the same
clock exactly if the same is left of them. -/
theorem wall_clock_lags (c : Manual) (advances : List UInt64)
    (hsteady : c.steady.toNat + total advances < UInt64.size)
    (hwall : c.unixUsec.toNat + total advances / 1000 < UInt64.size) :
    (c.after advances).steady.toNat = c.steady.toNat + total advances ∧
      (c.after advances).unixUsec.toNat + cutOff advances / 1000 =
        c.unixUsec.toNat + total advances / 1000 ∧
      ((c.after advances).unixUsec.toNat = c.unixUsec.toNat + total advances / 1000 ↔
        cutOff advances < 1000) ∧
      ((c.after advances).steady.toNat - c.steady.toNat : Int) =
        1000 * ((c.after advances).unixUsec.toNat - c.unixUsec.toNat) + cutOff advances ∧
      cutOff advances ≤ 999 * advances.length ∧
      ∀ others, total others = total advances →
        (c.after others = c.after advances ↔ cutOff others = cutOff advances) := by
  have grown : ∀ others, total others = total advances →
      (c.after others).steady.toNat = c.steady.toNat + total advances ∧
        (c.after others).unixUsec.toNat = c.unixUsec.toNat + wholeUsec others := by
    intro others htotal
    have husec := usec_add_cutOff others
    rw [steady_after, unixUsec_after, htotal]
    exact ⟨Nat.mod_eq_of_lt hsteady, Nat.mod_eq_of_lt (by omega)⟩
  have husec := usec_add_cutOff advances
  obtain ⟨hs, hw⟩ := grown advances rfl
  refine ⟨hs, by omega, by omega, by omega, cutOff_le advances, ?_⟩
  intro others htotal
  have hother := usec_add_cutOff others
  obtain ⟨hs', hw'⟩ := grown others htotal
  constructor
  · intro heq
    rw [heq] at hw'
    omega
  · intro hcut
    exact ext_toNat (by omega) (by omega)

/-- Of an advance by 1500 ns and one by 700 ns the wall clock gets one of two microseconds. -/
theorem wall_clock_lags_parts :
    let c : Manual := ⟨1000, 2000⟩
    c.steady.toNat + total [1500, 700] < UInt64.size ∧
      c.unixUsec.toNat + total [1500, 700] / 1000 < UInt64.size ∧
      c.after [1500, 700] = ⟨3200, 2001⟩ ∧ cutOff [1500, 700] = 1200 ∧
      (c.after [1500, 700]).unixUsec.toNat + 1 = c.unixUsec.toNat + total [1500, 700] / 1000 := by
  intro c
  have hsteady : c.steady.toNat + total [1500, 700] < UInt64.size := by decide
  have hwall : c.unixUsec.toNat + total [1500, 700] / 1000 < UInt64.size := by decide
  have h := wall_clock_lags c [1500, 700] hsteady hwall
  exact ⟨hsteady, hwall, by decide, by decide, h.2.1⟩

/-- Two advances by 999 ns do not move the wall clock; one by their sum does. -/
theorem wall_clock_stops :
    let c : Manual := ⟨0, 0⟩
    total [999, 999] = total [1998] ∧ total [1998] / 1000 = 1 ∧
      c.after [999, 999] = ⟨1998, 0⟩ ∧ c.after [1998] = ⟨1998, 1⟩ := by
  decide

end Manual
end Clock
end FlightLink
