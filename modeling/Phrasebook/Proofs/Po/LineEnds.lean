import Phrasebook.Proofs.Po.Files

/-!
How the lines of a file end does not matter: neither whether a carriage return stands in front of
each line feed, nor whether the last line has an end at all.
-/

namespace Phrasebook.Po

namespace Reader

theorem ofChars_returned {text : List Char} (clean : '\r' ∉ text) :
    ofChars (Text.returned text) = ofChars text := by
  rw [ofChars, ofChars, Text.lines_returned clean]

/-- The line feed ends the last line, or else it is a blank line, which closes what the end of the
file would close. -/
theorem ofChars_concat_feed {text : List Char} (clean : '\r' ∉ text) :
    ofChars (text ++ ['\n']) = ofChars text := by
  rcases Text.lines_concat_feed text with blank | ⟨before, last, cut, cutFed⟩
  · rw [ofChars, ofChars, blank, readLines_append]
    cases start.readLines 1 (Text.lines text) with
    | error refusal => rfl
    | ok next =>
      show (next.readLines _ [[]]).bind flush = next.flush
      rw [readLines_blank, flushIfWorded_flush]
  · have cleanLast : '\r' ∉ last := by
      intro inside
      have member : last ∈ Text.lines text := by
        rw [cut]
        exact List.mem_append_right before List.mem_cons_self
      exact clean (Text.mem_of_mem_lines member inside)
    rw [ofChars, ofChars, cutFed, cut, Text.fed_of_clean cleanLast]

end Reader

/-- A file without carriage returns is read as the same catalog, or refused with the same error at
the same place, whether its lines end in line feeds or each in a carriage return and a line feed,
and whether or not a last line end follows. -/
theorem read_whatever_line_ends {text : String} (clean : '\r' ∉ text.toList) :
    read (String.ofList (Text.returned text.toList)) = read text ∧
      read (text ++ "\n") = read text ∧
      read (String.ofList (Text.returned text.toList) ++ "\r\n") = read text := by
  have feed : (text ++ "\n").toList = text.toList ++ ['\n'] := by simp
  have cleanFed : '\r' ∉ text.toList ++ ['\n'] := by simp [clean]
  have returnFeed : Text.returned text.toList ++ ['\r', '\n'] =
      Text.returned (text.toList ++ ['\n']) := (Text.returned_append text.toList ['\n']).symm
  refine ⟨?_, ?_, ?_⟩
  · rw [read, read, String.toList_ofList, Reader.ofChars_returned clean]
  · rw [read, read, feed, Reader.ofChars_concat_feed clean]
  · have written : (String.ofList (Text.returned text.toList) ++ "\r\n").toList =
        Text.returned (text.toList ++ ['\n']) := by simpa using returnFeed
    rw [read, read, written, Reader.ofChars_returned cleanFed, Reader.ofChars_concat_feed clean]

/-- A bad escape in the fourth line, behind an entry that an empty line closes. -/
theorem read_whatever_line_ends_escape :
    let text := "msgid \"a\"\nmsgstr \"x\"\n\nmsgid \"\\q\""
    read (String.ofList (Text.returned text.toList)) = .error (.malformed 4 8 .unreadable) ∧
      read (text ++ "\n") = .error (.malformed 4 8 .unreadable) := by
  intro text
  have refused : read text = .error (.malformed 4 8 .unreadable) := by decide +kernel
  have clean : '\r' ∉ text.toList := by decide
  obtain ⟨returns, feed, _⟩ := read_whatever_line_ends clean
  exact ⟨returns.trans refused, feed.trans refused⟩

end Phrasebook.Po
