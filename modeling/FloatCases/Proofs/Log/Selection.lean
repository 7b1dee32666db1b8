import FloatCases.Log
import FloatCases.Proofs.Text.Runs

/-!
Logs as selections. Main statements: what is written at a threshold can be told from the entries of
all events, and without traces no filter writes anything that is not written at the threshold for
all but traces.
-/
namespace FloatCases

variable {lg : Logger} {t : Threshold} {f : Filter} {e : Event} {es : List Event} {l : Level}

/-- The level that an entry of a log starts with. -/
def Level.ofFirstWord? (entry : Text) : Option Level :=
  all.find? fun l => l.name = entry.takeWhile (· ≠ ' ')

/-- Whether the level of an entry of a log is the least that is written or above it. -/
def Threshold.admitsEntry (t : Threshold) (entry : Text) : Bool :=
  (Level.ofFirstWord? entry).any t.admits

theorem Level.space_not_mem_name (l : Level) : ' ' ∉ l.name := by
  cases l <;> decide

theorem Level.ofFirstWord?_entry (lg : Logger) (e : Event) :
    ofFirstWord? (lg.entry e) = some e.level := by
  have hword : ∀ c ∈ e.level.name, decide (c ≠ ' ') = true := fun c hc =>
    decide_eq_true (ne_of_mem_of_not_mem hc e.level.space_not_mem_name)
  have hname : (lg.entry e).takeWhile (· ≠ ' ') = e.level.name :=
    Text.takeWhile_run hword (Text.stops_cons.mpr (by decide))
  rw [ofFirstWord?, hname]
  cases e.level <;> rfl

namespace Threshold

theorem admitsEntry_entry (lg : Logger) (t : Threshold) (e : Event) :
    t.admitsEntry (lg.entry e) = t.filter.admits e := by
  rw [admitsEntry, Level.ofFirstWord?_entry]
  rfl

/-- Every threshold but the one for everything leaves out traces. -/
theorem admits_debug_of_admits (ht : t ≠ some .trace) (h : t.admits l = true) :
    admits (some .debug) l = true := by
  cases t with
  | none => exact absurd h (by simp [admits])
  | some least => cases least <;> cases l <;> simp_all [admits, Level.rank]

end Threshold

namespace Logger

theorem log_filter_entries (lg : Logger) (f : Filter) (t : Threshold) (es : List Event) :
    (lg.log f es).filter t.admitsEntry =
      ((es.filter t.filter.admits).filter f.admits).map lg.entry := by
  rw [log, List.filter_map, List.filter_filter, List.filter_filter]
  congr 2
  funext e
  rw [Function.comp_apply, Threshold.admitsEntry_entry, Bool.and_comm]

/-- A log at a threshold is a selection of the entries of all events. -/
theorem log_threshold (lg : Logger) (t : Threshold) (es : List Event) :
    lg.log t.filter es = (es.map lg.entry).filter t.admitsEntry := by
  rw [List.filter_map, log]
  congr 2
  funext e
  exact (Threshold.admitsEntry_entry lg t e).symm

/-- Whatever the filter, what it writes apart from traces is written without it. -/
theorem log_sublist_debug (lg : Logger) (f : Filter) (es : List Event) :
    ((lg.log f es).filter (Threshold.admitsEntry (some .debug))).Sublist
      (lg.log (Threshold.filter (some .debug)) es) := by
  rw [log_filter_entries, log]
  exact List.filter_sublist.map _

/-- A threshold that leaves out traces selects from the log of all but traces. -/
theorem log_threshold_of_debug (ht : t ≠ some .trace) :
    lg.log t.filter es =
      (lg.log (Threshold.filter (some .debug)) es).filter t.admitsEntry := by
  rw [log_threshold, log_threshold, List.filter_filter]
  refine List.filter_congr fun entry _ => ?_
  cases hl : Level.ofFirstWord? entry with
  | none => simp [Threshold.admitsEntry, hl]
  | some l =>
    simp only [Threshold.admitsEntry, hl, Option.any_some]
    cases ha : t.admits l with
    | false => rfl
    | true => rw [Threshold.admits_debug_of_admits ht ha]; rfl

end Logger
end FloatCases
