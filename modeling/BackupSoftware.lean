import BackupSoftware.Library.Trace
import BackupSoftware.Library.Bytes
import BackupSoftware.Library.Strings
import BackupSoftware.Library.Numbered
import BackupSoftware.Library.RowTable
import BackupSoftware.Library.Buckets
import BackupSoftware.Library.Channel
import BackupSoftware.Library.Memory
import BackupSoftware.Library.Stuffing
import BackupSoftware.Library.Blocks
import BackupSoftware.Library.BlockHash
import BackupSoftware.Library.Feistel
import BackupSoftware.Library.SubstitutionNetwork
import BackupSoftware.Library.SemaphoreSets
import BackupSoftware.Library.Descriptors
import BackupSoftware.Library.Calendar
import BackupSoftware.Library.Crc
import BackupSoftware.Library.OnesComplement
import BackupSoftware.Library.Quad
import BackupSoftware.Library.ByteField
import BackupSoftware.Library.Rijndael
import BackupSoftware.Library.Des
import BackupSoftware.Library.Md5
import BackupSoftware.Library.Sha256
import BackupSoftware.Can.Frame
import BackupSoftware.Can.Sender
import BackupSoftware.Can.Receiver
import BackupSoftware.Can.Reassembly
import BackupSoftware.Can.RoundTrip
import BackupSoftware.Can.Senders
import BackupSoftware.Can.Loss
import BackupSoftware.Can.Bounds
import BackupSoftware.Can.Completeness
import BackupSoftware.Can.Boundaries
import BackupSoftware.Can.Singles
import BackupSoftware.Can.Disclosure
import BackupSoftware.Records.Sqlite
import BackupSoftware.Records.Store
import BackupSoftware.Records.Semaphore
import BackupSoftware.Records.QueueLaws
import BackupSoftware.Records.Truthful
import BackupSoftware.Records.Drain
import BackupSoftware.Records.Refinement
import BackupSoftware.Records.Handles
import BackupSoftware.Records.Exclusion
import BackupSoftware.Records.Create
import BackupSoftware.NodeServer.Escape
import BackupSoftware.NodeServer.Dependence
import BackupSoftware.NodeServer.Framing
import BackupSoftware.NodeServer.Package
import BackupSoftware.NodeServer.Balance
import BackupSoftware.Encryption.Base64
import BackupSoftware.Encryption.Base64Bounds
import BackupSoftware.Encryption.Des
import BackupSoftware.Encryption.DesBuffer
import BackupSoftware.Encryption.DesStandard
import BackupSoftware.Encryption.Aes
import BackupSoftware.Encryption.AesAccess
import BackupSoftware.Encryption.AesTables
import BackupSoftware.Encryption.AesCipher
import BackupSoftware.Encryption.AesStandard
import BackupSoftware.Encryption.AesCalls
import BackupSoftware.Encryption.Md5
import BackupSoftware.RentRecord.Parser
import BackupSoftware.RentRecord.Bounds
import BackupSoftware.RentRecord.Lines
import BackupSoftware.RentRecord.Fields
import BackupSoftware.RentRecord.Extras
import BackupSoftware.RentRecord.HexText
import BackupSoftware.Dispatch.FnHash
import BackupSoftware.Gps.Nmea
import BackupSoftware.Gps.Parsers
import BackupSoftware.Gps.Failures
import BackupSoftware.Gps.Alignment
import BackupSoftware.Gps.Weekday
import BackupSoftware.Gps.LocalTime
import BackupSoftware.Gps.DayOfYear
import BackupSoftware.Wifi.Config
import BackupSoftware.Ping.Status
import BackupSoftware.Ping.Loop
import BackupSoftware.Ping.Checksum
import BackupSoftware.Ftp.System
import BackupSoftware.Ftp.Segmentation
import BackupSoftware.Ftp.Passive
import BackupSoftware.Sha204.Command
import BackupSoftware.Sha204.Sha256
import BackupSoftware.Sha204.Session
import BackupSoftware.General.Bitmap
import BackupSoftware.Blacklist.Import
import BackupSoftware.Blacklist.Lines
