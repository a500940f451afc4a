import ForeignCall.Assignment
import ForeignCall.Delivery
import ForeignCall.Text.Padding
import ForeignCall.Text.Quoted
import ForeignCall.Decimal.Reading
import ForeignCall.Decimal.Shortest
import ForeignCall.Target.SelfTest
import ForeignCall.Target.Installed
import ForeignCall.Cache
import ForeignCall.Memory.CString
import ForeignCall.Memory.Element
import ForeignCall.Memory.Heap
import ForeignCall.Host
import ForeignCall.Settings
import ForeignCall.Tool.Layout
import ForeignCall.Tool.Overview
import ForeignCall.Tool.Call
import ForeignCall.Tool.Program
import ForeignCall.Main
import ForeignCall.Proofs.Canonical
import ForeignCall.Proofs.Run
import ForeignCall.Proofs.Assignment.Step
import ForeignCall.Proofs.Assignment.Sound
import ForeignCall.Proofs.Image
import ForeignCall.Proofs.Assignment.Classes
import ForeignCall.Proofs.SystemV
import ForeignCall.Proofs.Assignment.Positions
import ForeignCall.Proofs.Windows
import ForeignCall.Proofs.Faithful
import ForeignCall.Proofs.Assignment.WellFormed
import ForeignCall.Proofs.Assignment.Demand
import ForeignCall.Proofs.StackLayout
import ForeignCall.Proofs.Signature.Grammar
import ForeignCall.Proofs.Signature.RoundTrip
import ForeignCall.Proofs.Signature.Viable
import ForeignCall.Proofs.Cache.History
import ForeignCall.Proofs.Cache.Session
import ForeignCall.Proofs.Cache.Interleaving
import ForeignCall.Proofs.Cache.Binding
import ForeignCall.Proofs.Assignment.Extension
import ForeignCall.Proofs.Target.Installation
import ForeignCall.Proofs.Memory.Allocation
import ForeignCall.Proofs.Assignment.Policies
import ForeignCall.Proofs.Signature.Resolution
import ForeignCall.Proofs.Target.Selection
import ForeignCall.Proofs.Accumulation
import ForeignCall.Proofs.Memory.Bulk
import ForeignCall.Proofs.Text.Utf8
import ForeignCall.Proofs.Memory.CString
import ForeignCall.Proofs.Representative
import ForeignCall.Proofs.Tool.IntegerText
import ForeignCall.Proofs.Library.Search
import ForeignCall.Proofs.Memory.Slice
import ForeignCall.Proofs.Tool.Preparation
import ForeignCall.Proofs.Tool.Layout
import ForeignCall.Proofs.Text.Invoker
import ForeignCall.Proofs.Result
