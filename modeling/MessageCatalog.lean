import MessageCatalog.Extraction.Trace
import MessageCatalog.Main
import MessageCatalog.Syntax.Outline
import MessageCatalog.Proofs.Catalog.History
import MessageCatalog.Proofs.Catalog.Identity
import MessageCatalog.Proofs.Command.Rerun
import MessageCatalog.Proofs.Constant.Guard
import MessageCatalog.Proofs.Constant.Resolution
import MessageCatalog.Proofs.Extraction.Layout
import MessageCatalog.Proofs.Extraction.Shapes
import MessageCatalog.Proofs.Extraction.Undescribed
import MessageCatalog.Proofs.Message.Canonical
import MessageCatalog.Proofs.Json.Structure
import MessageCatalog.Proofs.Catalog.Document
import MessageCatalog.Proofs.Config.Document
import MessageCatalog.Proofs.Message.Viability
import MessageCatalog.Proofs.Extraction.Stored
import MessageCatalog.Proofs.Unit.Containment
import MessageCatalog.Proofs.Issue.Wording
import MessageCatalog.Proofs.Report.Mark
import MessageCatalog.Proofs.Scan.Relocation
import MessageCatalog.Proofs.Report.Arrival
import MessageCatalog.Proofs.Command.Listing
import MessageCatalog.Proofs.Constant.Ambiguity
import MessageCatalog.Proofs.Binding.Usable
import MessageCatalog.Proofs.Binding.Rearrangement
import MessageCatalog.Proofs.Constant.Template
import MessageCatalog.Proofs.Constant.Numeral
import MessageCatalog.Proofs.Extraction.Spread
import MessageCatalog.Proofs.Descriptor.Overriding
