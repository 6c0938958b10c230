import FluentSql.Client.Recorded
import FluentSql.Connection.Address
import FluentSql.Connection.Assignment
import FluentSql.Connection.Document
import FluentSql.Session.Perform
import FluentSql.Wire.Server
import FluentSql.Proofs.Binding.Registration
import FluentSql.Proofs.Condition.Lenient
import FluentSql.Proofs.Connection.Address
import FluentSql.Proofs.Connection.Attempt
import FluentSql.Proofs.Event.Truncation
import FluentSql.Proofs.Identifier.Rendering
import FluentSql.Proofs.Session.Alike
import FluentSql.Proofs.Session.Commute
import FluentSql.Proofs.Session.Lockstep
import FluentSql.Proofs.Session.Paging
import FluentSql.Proofs.Session.Quotation
import FluentSql.Proofs.Session.Usable
import FluentSql.Proofs.Session.Values
import FluentSql.Proofs.Session.Warnings
import FluentSql.Proofs.Text.Display
import FluentSql.Proofs.Text.Stripping
import FluentSql.Proofs.Wire.Cleaned
import FluentSql.Proofs.Wire.Whole
import FluentSql.Proofs.Wire.WriteBack
