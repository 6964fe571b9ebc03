import LiveMigration.Proofs.Transfer.Delivery

/-!
Transfers that break off. A sender writes the headers of one dump, each with as many bytes
behind it as it says; the network may alter those bytes, and all that comes after some point
may be lost. However much arrives, only the directory of this dump is touched.
-/

namespace LiveMigration.Transfer

/-- What arrives of what a sender writes: altered or not behind its headers, up to some point. -/
def IsCut (auth : Auth) (ps : List (Header × Bytes)) (stream : Inflow) : Prop :=
  ∃ (sent : List (Header × Bytes)) (lost : Bytes), sent.map Prod.fst = ps.map Prod.fst ∧
    (∀ p ∈ sent, p.2.length = p.1.contentLength) ∧
    stream.flatten ++ lost = (writeAll auth sent).bytes

/-- A stream that breaks off after so many bytes. -/
theorem isCut_take {auth : Auth} {ps : List (Header × Bytes)}
    (whole : ∀ p ∈ ps, p.2.length = p.1.contentLength) (n : Nat) :
    IsCut auth ps [(writeAll auth ps).bytes.take n] :=
  ⟨ps, (writeAll auth ps).bytes.drop n, rfl, whole, by simp⟩

theorem dump_of_mem_parcels {dump : Dump} {before : Option Dump} {entries : List (Bytes × Entry)}
    {header : Header} (listed : header ∈ (parcels dump before entries).map Prod.fst) :
    header.dump = dump.name := by
  obtain ⟨p, mem, rfl⟩ := List.mem_map.1 listed
  unfold parcels at mem
  rw [List.mem_append, List.mem_singleton] at mem
  obtain mem | rfl := mem
  · obtain ⟨entry, _, sent⟩ := List.mem_filterMap.1 mem
    obtain ⟨_, _, _, rfl⟩ | ⟨_, _, rfl⟩ := parcelOf_eq_some_iff.1 sent <;> rfl
  · rfl

/-! ## What is left behind -/

variable {d₀ : Disk} {root : Path} {k : Location} {dump : Dump} {place link : Option Entry}
  {s s' : Intake}

theorem not_readHeader_of_empty {auth : Auth} {stream rest : Inflow} {header : Header}
    (empty : stream.flatten = []) : readHeader auth stream ≠ .ok (header, rest) := by
  intro read
  have := size_of_readHeader read
  rw [Inflow.size, Inflow.size, empty] at this
  exact Nat.not_lt_zero _ this

/-- Nothing has changed, or the directory of the dump is there and nothing has changed outside
of it. -/
theorem Within.receive_of_lost {auth serving : Auth} {sent : List (Header × Bytes)}
    {lost : Bytes} {r : Except TransferError String}
    (named : ∀ p ∈ sent, p.1.dump = dump.name)
    (whole : ∀ p ∈ sent, p.2.length = p.1.contentLength)
    (w : Within d₀ s.disk (k ++ [dump.entryName]) place link)
    (roots : d₀.tree.RootsBeside d₀.cwd root k dump.entryName)
    (unlinked : ∀ target, place ≠ some (.link target))
    (cut : s.stream.flatten ++ lost = (writeAll auth sent).bytes)
    (h : Intake.receive serving root s = (r, s')) :
    s'.disk = s.disk ∨
      ∃ link', Within d₀ s'.disk (k ++ [dump.entryName]) (some .directory) link' := by
  induction sent generalizing s place link with
  | nil =>
      rw [Intake.receive] at h
      split at h
      · cases h
        exact .inl rfl
      · rename_i read
        exact absurd read (not_readHeader_of_empty (List.append_eq_nil_iff.1 cut).1)
  | cons p sent ih =>
      obtain ⟨header, content⟩ := p
      have about : header.dump = dump.name := named _ (List.mem_cons_self ..)
      have length : content.length = header.contentLength := whole _ (List.mem_cons_self ..)
      rw [Intake.receive] at h
      split at h
      · cases h
        exact .inl rfl
      rename_i header' stream read
      unfold writeAll at cut
      split at cut
      · exact absurd read (not_readHeader_of_empty (List.append_eq_nil_iff.1 cut).1)
      rename_i frame written
      dsimp only at cut
      rw [List.append_assoc] at cut
      obtain ⟨rfl, cut⟩ := readHeader_of_cut written cut read
      have outcome {r : Except TransferError (Option String)} {next : Intake}
          (applied : Intake.apply root ⟨s.disk, stream⟩ header' = (r, next)) :=
        w.apply (s := ⟨s.disk, stream⟩) roots unlinked about applied
      split at h
      · rename_i applied
        cases h
        exact (outcome applied).imp And.left id
      · rename_i applied
        cases h
        exact (outcome applied).imp And.left id
      · rename_i next applied
        obtain ⟨_, taken, taken_length, flat, w, _⟩ :=
          w.apply_ok (s := ⟨s.disk, stream⟩) roots unlinked about applied
        dsimp only at flat
        rw [flat, List.append_assoc] at cut
        obtain ⟨_, cut⟩ := List.append_inj cut (taken_length.trans length.symm)
        obtain same | changed := ih (fun p mem => named p (List.mem_cons_of_mem _ mem))
          (fun p mem => whole p (List.mem_cons_of_mem _ mem)) w (fun target same => by cases same)
          cut h
        · exact .inr ⟨_, same ▸ w⟩
        · exact .inr changed

/-- So it is with whatever arrives of a dump. -/
theorem Within.receive_of_cut {auth serving : Auth} {before : Option Dump}
    {entries : List (Bytes × Entry)} {r : Except TransferError String}
    (w : Within d₀ s.disk (k ++ [dump.entryName]) place link)
    (roots : d₀.tree.RootsBeside d₀.cwd root k dump.entryName)
    (unlinked : ∀ target, place ≠ some (.link target))
    (cut : IsCut auth (parcels dump before entries) s.stream)
    (h : Intake.receive serving root s = (r, s')) :
    s'.disk = s.disk ∨
      ∃ link', Within d₀ s'.disk (k ++ [dump.entryName]) (some .directory) link' := by
  obtain ⟨sent, lost, headers, whole, cut⟩ := cut
  have named : ∀ p ∈ sent, p.1.dump = dump.name := fun p mem =>
    dump_of_mem_parcels (headers ▸ List.mem_map_of_mem mem)
  exact w.receive_of_lost named whole roots unlinked cut h

end LiveMigration.Transfer
