import PackagePool.Proofs.Config.Documents

/-!
# Configurations read back from their texts

A configuration that is written and read is the same but for the blanks at the ends of its editions
(`ConfigFormat.IsLossless.parse_write`).  So it equals the one that was written, and it locks the
same resolvables.  Only a blank name stands in the way: it can be written, and the reader refuses
it.

This holds in every lossless format.  TOML documents are one.
-/

namespace PackagePool

namespace PoolConfig

/-- **A configuration survives being written and read.**  In a lossless format, let the names and
the editions of the locks be plain.  If no lock has a blank name, the text that is written for the
configuration is read as an equal one, with equal locks in the same order, and the two lock the same
resolvables.  If some lock has a blank name, the text is refused. -/
theorem equal_config_read_back {format : ConfigFormat} (hlossless : format.IsLossless)
    {c : PoolConfig} (hplain : ∀ l ∈ c.locks, l.IsPlain) :
    ((∀ l ∈ c.locks, Text.trim l.name ≠ "") →
      ∃ back, format.parse (format.write c.record) = .ok back ∧ (back == c) = true ∧
        ∀ r, back.isLocked r = c.isLocked r) ∧
    ((∃ l ∈ c.locks, Text.trim l.name = "") →
      format.parse (format.write c.record) = .error .blankLockName) := by
  rw [hlossless.parse_write hplain]
  constructor
  · intro hnames
    have hall : c.namesLocks = true :=
      List.all_eq_true.2 fun l hl => bne_iff_ne.2 (hnames l hl)
    refine ⟨c.trimmed, if_pos hall, c.trimmed_beq, fun r => ?_⟩
    rw [isLocked_eq_of_beq c.trimmed_beq]
  · rintro ⟨l, hl, hblank⟩
    have hnot : ¬ c.namesLocks = true := by
      intro hall
      exact bne_iff_ne.1 (List.all_eq_true.1 hall l hl) hblank
    exact if_neg hnot

/-- The edition of the kernel is written with a blank in front, which is not read.  The second lock
has neither an edition nor an architecture. -/
theorem equal_config_read_back_kernel :
    let edition : Edition := ⟨0, " 6.4.0", none, by decide⟩
    let kernel : LockEntry := ⟨.package, "kernel", some edition, some .x86_64⟩
    let base : LockEntry := ⟨.pattern, "base", none, none⟩
    let c : PoolConfig := ⟨some .x86_64, [kernel, base]⟩
    ConfigFormat.toml.IsLossless ∧ (∀ l ∈ c.locks, l.IsPlain) ∧
      (∀ l ∈ c.locks, Text.trim l.name ≠ "") ∧
      ∃ back, ConfigFormat.toml.parse (ConfigFormat.toml.write c.record) = .ok back ∧
        (back == c) = true ∧ ∀ r, back.isLocked r = c.isLocked r := by
  intro edition kernel base c
  have hplain : ∀ l ∈ c.locks, l.IsPlain :=
    List.forall_mem_cons.2 ⟨⟨by decide, by rintro e ⟨⟩; decide⟩,
      List.forall_mem_singleton.2 (LockEntry.isPlain_of_edition_eq_none (by decide) rfl)⟩
  have hnames : ∀ l ∈ c.locks, Text.trim l.name ≠ "" :=
    List.forall_mem_cons.2 ⟨by decide, List.forall_mem_singleton.2 (by decide)⟩
  exact ⟨ConfigFormat.toml_isLossless, hplain, hnames,
    (equal_config_read_back ConfigFormat.toml_isLossless hplain).1 hnames⟩

end PoolConfig

end PackagePool
