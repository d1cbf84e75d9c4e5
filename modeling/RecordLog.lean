import RecordLog.Main
import RecordLog.Proofs.Log.Account
import RecordLog.Proofs.Log.Acknowledged
import RecordLog.Proofs.Log.History
import RecordLog.Proofs.Log.Torn
import RecordLog.Proofs.Search.Leftmost
import RecordLog.Proofs.Command.Listing
import RecordLog.Proofs.Command.Session
import RecordLog.Proofs.Cursor.Calls
import RecordLog.Proofs.Log.Clean
import RecordLog.Proofs.Log.Writing
import RecordLog.Proofs.Log.Shared
import RecordLog.Proofs.Search.Later
import RecordLog.Proofs.Format.Quotation
import RecordLog.Proofs.Command.Texts
import RecordLog.Proofs.Format.Masked
import RecordLog.Proofs.Log.Boundaries
import RecordLog.Proofs.Json.Misread
import RecordLog.Proofs.Json.Lexing
import RecordLog.Proofs.Json.Agreement
import RecordLog.Proofs.Record.Canonical
import RecordLog.Proofs.Format.Escapes
import RecordLog.Proofs.Machine.Passes
