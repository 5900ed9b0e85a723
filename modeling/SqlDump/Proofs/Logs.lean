import SqlDump.Log.Logger

/-!
# What loggers write

A logger writes the lines of the entries that it takes, in order: on the console, if it writes there,
and at the end of its file, if it has one and the file can be written to.
-/

namespace SqlDump

/-- Lines at the end of a file, as far as they can be put there. -/
def Files.appendAll (files : Files) (path : Text) (lines : List Text) : Files :=
  lines.foldl (fun files line => (files.append path line).toOption.getD files) files

namespace Logger

/-- The lines of the entries that a logger takes. -/
def lines (logger : Logger) (now : Moment) (entries : List Entry) : List Text :=
  (entries.filter logger.takes).map (·.line now ++ "\n")

/-- Lines on the console of a logger and in its file. -/
def put (logger : Logger) (output : Output) (lines : List Text) : Output where
  files := logger.path.elim output.files (output.files.appendAll · lines)
  console := output.console ++ if logger.toConsole then lines.flatten else []

variable (logger : Logger) (now : Moment) (output : Output)

theorem put_nil : logger.put output [] = output := by
  unfold put
  cases logger.path <;> simp [Files.appendAll]

theorem put_append (first rest : List Text) :
    logger.put (logger.put output first) rest = logger.put output (first ++ rest) := by
  unfold put
  cases logger.path <;> cases logger.toConsole <;> simp [Files.appendAll, List.foldl_append]

/-- An entry is written as its line, or not at all. -/
theorem write_eq (entry : Entry) :
    (logger.write now output entry).1 = logger.put output (logger.lines now [entry]) := by
  unfold write lines
  cases h : logger.takes entry with
  | false =>
    rw [List.filter_cons_of_neg (by simp [h]), List.filter_nil, List.map_nil, put_nil]
    rfl
  | true =>
    rw [List.filter_cons_of_pos h, List.filter_nil, List.map_cons, List.map_nil, put]
    generalize entry.line now ++ "\n" = line
    cases logger.path with
    | none => cases logger.toConsole <;> simp
    | some path =>
      cases happend : output.files.append path line <;> cases logger.toConsole <;>
        simp [Files.appendAll, Except.toOption, happend]

/-- A log is written as the lines of its entries. -/
theorem writeAll_eq (entries : List Entry) :
    logger.writeAll now output entries = logger.put output (logger.lines now entries) := by
  induction entries generalizing output with
  | nil => exact (logger.put_nil output).symm
  | cons entry entries ih =>
    have hlines : logger.lines now (entry :: entries) =
        logger.lines now [entry] ++ logger.lines now entries := by
      unfold lines
      rw [← List.map_append, ← List.filter_append, List.singleton_append]
    show logger.writeAll now (logger.write now output entry).1 entries = _
    rw [ih, write_eq, put_append, hlines]

theorem writeAll_append (first rest : List Entry) : logger.writeAll now output (first ++ rest) =
    logger.put (logger.writeAll now output first) (logger.lines now rest) := by
  rw [← writeAll_eq]
  exact List.foldl_append

/-- Errors are taken at every level. -/
theorem lines_error {entry : Entry} (h : entry.level = .error) :
    logger.lines now [entry] = [entry.line now ++ "\n"] := by
  have htakes : logger.takes entry = true := by
    unfold takes
    rw [h]
    cases logger.level <;> decide
  unfold lines
  rw [List.filter_cons_of_pos htakes]
  rfl

/-- Information is taken at the lowest level only. -/
theorem lines_info {entry : Entry} (h : entry.level = .info) :
    logger.lines now [entry] = if logger.level = .info then [entry.line now ++ "\n"] else [] := by
  have htakes : logger.takes entry = decide (logger.level = .info) := by
    unfold takes
    rw [h]
    cases logger.level <;> rfl
  unfold lines
  rw [List.filter_cons, htakes]
  cases logger.level <;> rfl

end Logger

end SqlDump
