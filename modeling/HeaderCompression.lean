import HeaderCompression.Bits.View
import HeaderCompression.Main
import HeaderCompression.Proofs.Bits.Aligned
import HeaderCompression.Proofs.Bits.Cursor
import HeaderCompression.Proofs.Bits.Pointwise
import HeaderCompression.Proofs.Capture.Summary
import HeaderCompression.Proofs.Checked.Packet
import HeaderCompression.Proofs.Coap.Editing
import HeaderCompression.Proofs.Header.Widths
import HeaderCompression.Proofs.Packet.Computed
import HeaderCompression.Proofs.Packet.Expansion
import HeaderCompression.Proofs.Packet.Fragment
import HeaderCompression.Proofs.Packet.Opposite
import HeaderCompression.Proofs.Packet.Patched
import HeaderCompression.Proofs.Packet.Reuse
import HeaderCompression.Proofs.Rule.CanonicalResidue
import HeaderCompression.Proofs.Rule.Executable
import HeaderCompression.Proofs.Rule.Lookup
import HeaderCompression.Proofs.Rule.LowBits
import HeaderCompression.Proofs.Rule.ResidueLength
import HeaderCompression.Proofs.Rule.Target
