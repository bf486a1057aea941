import Veilroom.Admission.Handshake
import Veilroom.Admission.Members
import Veilroom.Chat.Atomic
import Veilroom.Crypto.Transcripts
import Veilroom.Host.Bounded
import Veilroom.Host.Budget
import Veilroom.Host.Coherence
import Veilroom.Host.Invitations
import Veilroom.Host.Listener
import Veilroom.Host.Lockout
import Veilroom.Join.Shown
import Veilroom.Net.Closing
import Veilroom.Net.Socks
import Veilroom.Protocol.Canonical
import Veilroom.Room.Abuse
import Veilroom.Room.Consistency
import Veilroom.Room.Eviction
import Veilroom.Room.Farewells
import Veilroom.Room.Offenders
import Veilroom.Room.PendingCap
import Veilroom.Room.Rotation
import Veilroom.Room.Separation
import Veilroom.Room.Sequences
import Veilroom.System.Agreement
import Veilroom.System.Order
import Veilroom.System.Punctual
import Veilroom.System.Receptive
import Veilroom.Tor.Lifetime
import Veilroom.Ui.Buffer
import Veilroom.Ui.CommandLanguage
import Veilroom.Ui.Input
import Veilroom.Ui.Pane
import Veilroom.Uri.Language
