import AtmMonitor.Library.Regex
import AtmMonitor.ParserModels

namespace AtmMonitor.EventPatterns

open Library.Regex PyText ParserModels

abbrev Regex := Pattern Char

def isNewline (c : Char) : Bool := c == '\n'

def chr (c : Char) : Regex := .cls (· == c)

/-- A literal text under `re.IGNORECASE`. -/
def phrase (w : String) : Regex := lit sameFold w.toList

/-- `^phrase$` under `re.MULTILINE`. -/
def linePhrase (w : String) : Regex := seqs [lineStart isNewline, phrase w, lineEnd isNewline]

def digits (n : Nat) : Regex := seqs (List.replicate n (.cls isDigit))

/-- `^\s*\*(?P<seq>\d+)\*(?P<date>\d{2}/\d{2}/\d{4})\*(?P<time>\d{2}:\d{2})\*(?P<extra>.*)` -/
def EVENT_HEADER_PATTERN : Regex :=
  seqs [atStart, .many isSpace, chr '*', .group "seq" (many1 isDigit), chr '*',
    .group "date" (seqs [digits 2, chr '/', digits 2, chr '/', digits 4]), chr '*',
    .group "time" (seqs [digits 2, chr ':', digits 2]), chr '*',
    .group "extra" (.many (fun c => !isNewline c))]

def CASSETTE_POSITION_MAP : List (Str × Nat) :=
  [("TOP".toList, 1), ("FIRST".toList, 1), ("SECOND".toList, 2), ("THIRD".toList, 3),
   ("FOURTH".toList, 4), ("FIFTH".toList, 5), ("SIXTH".toList, 6)]

/-- One row of `OPERATIONAL_PATTERNS`. -/
structure Operational where
  pattern : Regex
  evType : EventType
  evCat : EventCategory
  sev : Severity
  termStat : Option TerminalStatus
  conf : Nat

def OPERATIONAL_PATTERNS : List Operational :=
  [⟨linePhrase "*TRANSACTION START*", .transactionStart, .transaction, .information, none, 100⟩,
   ⟨linePhrase "TRANSACTION END", .transactionEnd, .transaction, .information, none, 100⟩,
   ⟨linePhrase "*PRIMARY CARD READER ACTIVATED*", .cardReaderActivated, .cardReader, .information,
      none, 100⟩,
   ⟨linePhrase "SST IN SERVICE", .sstInService, .status, .information, some .inService, 100⟩,
   ⟨linePhrase "SST OUT OF SERVICE", .sstOutOfService, .status, .warning, some .outOfService, 100⟩,
   ⟨linePhrase "SST ON-LINE", .sstOnline, .status, .information, some .online, 100⟩,
   ⟨linePhrase "SST OFF-LINE", .sstOffline, .status, .warning, some .offline, 100⟩,
   ⟨linePhrase "POWER-UP/RESET", .powerUpReset, .system, .information, some .unknown, 100⟩,
   ⟨linePhrase "SUPERVISOR MODE ENTRY", .supervisorModeEntered, .supervisor, .information,
      some .supervisor, 100⟩,
   ⟨linePhrase "SUPERVISOR TASK ENTERED.", .supervisorModeEntered, .supervisor, .information,
      some .supervisor, 100⟩,
   ⟨linePhrase "SUPERVISOR TASK EXITED.", .supervisorModeExited, .supervisor, .information,
      some .inService, 100⟩,
   ⟨linePhrase "REJECT BIN REMOVED", .rejectBinRemoved, .rejectBin, .warning, none, 100⟩,
   ⟨linePhrase "REJECT BIN INSERTED", .rejectBinInserted, .rejectBin, .information, none, 100⟩,
   ⟨seqs [lineStart isNewline, phrase "CARDS CLEARED", .many isSpace, chr '≈', .many isSpace,
      many1 isDigit], .cardsCleared, .cardReader, .information, none, 100⟩,
   ⟨linePhrase "CARD INSERTED", .cardInserted, .cardReader, .information, none, 80⟩,
   ⟨linePhrase "CARD TAKEN", .cardTaken, .cardReader, .information, none, 80⟩,
   ⟨linePhrase "CUSTOMER CANCELLED", .customerCancelled, .transaction, .information, none, 80⟩,
   ⟨linePhrase "NOTES STACKED", .notesStacked, .cash, .information, none, 80⟩,
   ⟨seqs [lineStart isNewline, phrase "NOTES PRESENTED", many1 isSpace,
      many1 (fun c => isDigit c || c == ',')], .notesPresented, .cash, .information, none, 80⟩,
   ⟨linePhrase "NOTES TAKEN", .notesTaken, .cash, .information, none, 80⟩,
   ⟨linePhrase "CASH COUNTS CLEARED", .cashCountsCleared, .cash, .information, none, 100⟩,
   ⟨linePhrase "CASH ADDED", .cashAdded, .cash, .information, none, 100⟩,
   ⟨linePhrase "CASSETTE INFORMATION", .cassetteInformation, .cassette, .information, none, 100⟩]

def IGNORE_PATTERNS : List Regex :=
  [phrase "ENTER KEY WAS PRESSED", phrase "KEY PRESSED", phrase "SCREEN DISPLAY",
   phrase "DISPLAY DATA", phrase "KEYBOARD INPUT",
   seqs [lineStart isNewline, phrase "TERMINALID:", .many isSpace, lineEnd isNewline]]

/-- `^(positions)\s+CASSETTE\s+WORD` with the position captured. -/
def cassetteAction (word : String) : Regex :=
  seqs [atStart,
    .group "1" (alts [phrase "TOP", phrase "SECOND", phrase "THIRD", phrase "FOURTH",
      phrase "FIFTH", phrase "SIXTH", phrase "FIRST"]),
    many1 isSpace, phrase "CASSETTE", many1 isSpace, phrase word]

def CASSETTE_REMOVED_PATTERN : Regex := cassetteAction "REMOVED"
def CASSETTE_INSERTED_PATTERN : Regex := cassetteAction "INSERTED"

/-- `\d+[\*#\d]+` after a caption. -/
def cardAfter (caption : String) : Regex :=
  seqs [phrase caption, .many isSpace,
    .group "card" (.seq (many1 isDigit) (many1 (fun c => c == '*' || c == '#' || isDigit c)))]

def CARD_PATTERN : Regex := cardAfter "CARD:"
def CARD_NO_PATTERN : Regex := cardAfter "CARD NO:"

section Words

variable [Alnum]

def RESPONSE_CODE_PATTERN : Regex :=
  seqs [phrase "RESPONSE CODE:", .many isSpace, .group "resp" (many1 isWord)]

def FUNCTION_ID_PATTERN : Regex := seqs [phrase "FUNCTION ID≈", .group "func" (many1 isWord)]

def OPCODE_PATTERN : Regex :=
  seqs [phrase "OPCODE ≈", .many isSpace, .group "opcode" (many1 isWord)]

/-- `^(positions)\s+(?P<cur>\w+)\s+(?P<val>\d+)\s+(?P<type>\d+)\s+(?P<status>\w+)` -/
def CASSETTE_INFO_ROW : Regex :=
  seqs [atStart,
    .group "1" (alts [phrase "TOP", phrase "SECOND", phrase "THIRD", phrase "FOURTH",
      phrase "FIFTH", phrase "SIXTH"]),
    many1 isSpace, .group "cur" (many1 isWord), many1 isSpace, .group "val" (many1 isDigit),
    many1 isSpace, .group "type" (many1 isDigit), many1 isSpace, .group "status" (many1 isWord)]

end Words

def AMOUNT_PATTERN : Regex := seqs [phrase "AMOUNT≈", .group "amt" (many1 isDigit)]

def WITHDRAWAL_PATTERN : Regex :=
  seqs [phrase "WITHDRAWAL", many1 isSpace, .group "amt" (many1 (fun c => isDigit c || c == '.')),
    many1 isSpace, phrase "BDT"]

/-- `WORD\s+(?P<values>[\d\s]+)` -/
def valuesAfter (word : String) : Regex :=
  seqs [phrase word, many1 isSpace, .group "values" (many1 (fun c => isDigit c || isSpace c))]

def DENOMINATION_ROW_PATTERN : Regex := valuesAfter "DENOMINATION"
def DISPENSED_ROW_PATTERN : Regex := valuesAfter "DISPENSED"
def REJECTED_ROW_PATTERN : Regex := valuesAfter "REJECTED"
def REMAINING_ROW_PATTERN : Regex := valuesAfter "REMAINING"

def CASH_COUNTS_CLEARED_CASH_DISPENSED : Regex := phrase "CASH DISPENSED"
def CASH_COUNTS_CLEARED_CASH_REMAINING : Regex := phrase "CASH REMAINING"
def CASH_COUNTS_CLEARED_CASH_REJECTED : Regex := phrase "CASH REJECTED"

/-- `TYPE\s+N\s*≈\s*(?P<tN>\d+)` -/
def typeCount (digit : Char) (name : String) : Regex :=
  seqs [phrase "TYPE", many1 isSpace, chr digit, .many isSpace, chr '≈', .many isSpace,
    .group name (many1 isDigit)]

def CASH_ROW_TYPE_PATTERN : Regex :=
  seqs [typeCount '1' "t1", many1 isSpace, typeCount '2' "t2",
    .opt (seqs [many1 isSpace, typeCount '3' "t3", many1 isSpace, typeCount '4' "t4"])]

end AtmMonitor.EventPatterns
