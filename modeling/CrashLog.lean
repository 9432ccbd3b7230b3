import CrashLog.Rust
import CrashLog.Header.Basic
import CrashLog.Header.Laws
import CrashLog.Record.Basic
import CrashLog.Record.ReadField
import CrashLog.Text
import CrashLog.Node
import CrashLog.Node.Merge
import CrashLog.Record.Decode
import CrashLog.Record.Resolve
import CrashLog.Header.View
import CrashLog.Header.Collateral
import CrashLog.Record.Collateral
import CrashLog.Cper.Fields
import CrashLog.Cper.Header
import CrashLog.Cper.Descriptor
import CrashLog.Cper.Section
import CrashLog.Cper.Basic
import CrashLog.Cper.Layout
import CrashLog.Cper.RoundTrip
import CrashLog.Cper.FromCper
import CrashLog.Metadata
